import SqrzlEmulator.Gcs.Guards

/-!
# Generations do not repeat

A new object gets the number after the generation of the object that it replaces, or the clock in
milliseconds if that is more. **The generations of a key increase as long as each write has
something to go by** (`Ahead`): an object to replace, whose generation is not the last of all
numbers, or a clock that has passed every generation of the key.

A deletion takes the object away, and the clock stands still for a millisecond: a key that is
written twice, deleted and written again within one millisecond has the generation of its first
object once more (`generations_repeat`). A client that has seen the first object and asks for its
generation then changes the third one.

## Runs

Requests are served one after the other, at times that do not decrease (`Runs`). No call fails; what
fails is said elsewhere. The history of a key is read off the log.
-/

namespace Sqrzl.Gcs

open Prog S3

/-- The number that a generation stands for. -/
def number (g : String) : ℕ := (parseU64 g).getD 0

theorem number_toString {n : ℕ} (h : n < 2 ^ 64) : number (toString n) = n := by
  rw [number, parseU64_toString h]
  rfl

/-- A request and when it arrives. The clock counts milliseconds in an `i64`. -/
structure Arrival where
  now : Time
  target : Target
  req : Request
  inRange : timestampMillis now < 2 ^ 63

section Runs

variable (E : Env) (C : Crates) (combine : UInt32 → UInt32 → ℕ → UInt32)

/-- A request was served, and no call has failed. -/
def Arrival.Serves (a : Arrival) (S : System) (r : Except Error Response) (T : System) : Prop :=
  (handleRequest E C a.now combine a.target a.req).Returns S r T ∧
    ∃ l, T.log = l ++ S.log ∧ ∀ call, .failed call ∉ l

/-- Requests that are served one after the other, each of them in a state that satisfies `P`. -/
inductive Runs (P : Arrival → System → Prop) : Time → System → Time → System → Prop
  | refl (t : Time) (S : System) : Runs P t S t S
  | step {t u : Time} {S T U : System} {a : Arrival} {r : Except Error Response}
      (h : Runs P t S u T) (hclock : u ≤ a.now) (hP : P a T) (hserves : a.Serves E C combine T r U) :
      Runs P t S a.now U

/-- A write of a key has something to go by: the object that it replaces, or the clock. -/
def Ahead (b : String) (key : Text) (now : Time) (S : System) : Prop :=
  match shownGeneration S.vault b key with
  | some g => number g < 2 ^ 64 - 1
  | none => ∀ g ∈ history b key S.log, number g < timestampMillis now

/-- A request does not write the key, or has something to go by. -/
def WritesAhead (b : String) (key : Text) (a : Arrival) (S : System) : Prop :=
  writes a.target a.req = true →
    (∃ i, intent E C a.target a.req S = some i ∧ i.bucket = b ∧ i.key = key) → Ahead b key a.now S

end Runs

/-! ### Increasing histories -/

section Ordered

variable {E : Env} {C : Crates} {combine : UInt32 → UInt32 → ℕ → UInt32} {b : String} {key : Text}
  {S T : System} {now : Time}

/-- The generations of a key increase, and the current object has the last one. -/
structure Ordered (b : String) (key : Text) (S : System) : Prop where
  increasing : (history b key S.log).Pairwise fun later earlier ↦ number earlier < number later
  positive : ∀ g ∈ history b key S.log, 0 < number g
  current : ∀ g, shownGeneration S.vault b key = some g → (history b key S.log).head? = some g

theorem Ordered.of_fresh (hhistory : history b key S.log = []) (hshown : shown S.vault b key = none) :
    Ordered b key S where
  increasing := by rw [hhistory]; exact .nil
  positive := by rw [hhistory]; exact nofun
  current g hg := by rw [shownGeneration, hshown] at hg; cases hg

theorem number_following (hrange : timestampMillis now < 2 ^ 63) (current : Option String) :
    number (following now current) =
      max (saturatingSucc ((current.bind parseU64).getD 0)) (max (timestampMillis now) 1) := by
  refine number_toString ?_
  unfold saturatingSucc
  omega

/-- **The next generation is above all earlier ones.** -/
theorem lt_following (h : Ordered b key S) (hrange : timestampMillis now < 2 ^ 63)
    (hahead : Ahead b key now S) {g : String} (hg : g ∈ history b key S.log) :
    number g < number (following now (shownGeneration S.vault b key)) := by
  rw [number_following hrange]
  unfold Ahead at hahead
  cases hcurrent : shownGeneration S.vault b key with
  | none =>
    rw [hcurrent] at hahead
    have hlt : number g < timestampMillis now := hahead g hg
    exact lt_of_lt_of_le hlt (le_max_of_le_right (le_max_left ..))
  | some g' =>
    rw [hcurrent] at hahead
    obtain ⟨rest, hrest⟩ : ∃ rest, history b key S.log = g' :: rest := by
      have hhead := h.current g' hcurrent
      cases hlog : history b key S.log with
      | nil =>
        rw [hlog] at hhead
        cases hhead
      | cons first rest =>
        rw [hlog] at hhead
        exact ⟨rest, by rw [Option.some.inj hhead]⟩
    have hle : number g ≤ number g' := by
      rw [hrest] at hg
      rcases List.mem_cons.1 hg with rfl | hmem
      · exact le_rfl
      · have hincreasing := h.increasing
        rw [hrest] at hincreasing
        exact (List.rel_of_pairwise_cons hincreasing hmem).le
    have hsucc : number g' < saturatingSucc (number g') := by
      unfold saturatingSucc
      have hlast : number g' < 2 ^ 64 - 1 := hahead
      omega
    exact lt_of_lt_of_le (lt_of_le_of_lt hle hsucc) (le_max_left ..)

theorem Ordered.keyChange {permit : Prop} {scope : Scope} {l : List Event} (h : Ordered b key S)
    (hrange : timestampMillis now < 2 ^ 63) (hclean : ∀ call, .failed call ∉ l)
    (hahead : scope.stores = true → scope.key = some (b, key) → Ahead b key now S)
    (hchange : KeyChange now permit scope l S T b key) :
    Ordered b key T ∧ history b key S.log <:+ history b key T.log := by
  cases hchange with
  | kept hshown hhistory =>
    rw [hhistory]
    refine ⟨⟨hhistory ▸ h.increasing, hhistory ▸ h.positive, fun g hg ↦ ?_⟩, List.suffix_rfl⟩
    rw [hhistory]
    rw [shownGeneration, hshown] at hg
    exact h.current g hg
  | removed hscope _ hshown hhistory =>
    rw [hhistory]
    refine ⟨⟨hhistory ▸ h.increasing, hhistory ▸ h.positive, fun g hg ↦ ?_⟩, List.suffix_rfl⟩
    rw [shownGeneration, hshown] at hg
    cases hg
  | stored hscope hstores _ data g hshown hhistory hnext =>
    obtain rfl : g = following now (shownGeneration S.vault b key) :=
      hnext.resolve_right fun h ↦ h.elim hclean
    rw [hhistory]
    refine ⟨⟨?_, ?_, fun g hg ↦ ?_⟩, List.suffix_cons ..⟩
    · rw [hhistory]
      exact .cons (fun g' hg' ↦ lt_following h hrange (hahead hstores hscope) hg') h.increasing
    · rw [hhistory]
      intro g' hg'
      rcases List.mem_cons.1 hg' with rfl | hmem
      · rw [number_following hrange]
        omega
      · exact h.positive g' hmem
    · rw [hhistory]
      rw [shownGeneration, hshown] at hg
      exact hg

/-- **One request.** -/
theorem Ordered.serves {a : Arrival} {r : Except Error Response} (h : Ordered b key S)
    (hahead : WritesAhead E C b key a S) (hserves : a.Serves E C combine S r T) :
    Ordered b key T ∧ history b key S.log <:+ history b key T.log := by
  obtain ⟨hrun, l, hlog, hclean⟩ := hserves
  obtain ⟨l', hlog', hkeys, -⟩ := hrun.of_wp (does_handleRequest [])
  obtain rfl : l' = l := List.append_cancel_right (hlog'.symm.trans hlog)
  have hchange := hkeys b key
  rw [List.append_nil] at hchange
  refine h.keyChange a.inRange hclean (fun hstores hscope ↦ hahead hstores ?_) hchange
  obtain ⟨i, hi, hkey⟩ := Option.map_eq_some_iff.1 hscope
  cases hkey
  exact ⟨i, hi, rfl, rfl⟩

/-- **A run.** -/
theorem Ordered.runs {t u : Time} (h : Ordered b key S)
    (hruns : Runs E C combine (WritesAhead E C b key) t S u T) :
    Ordered b key T ∧ history b key S.log <:+ history b key T.log := by
  induction hruns with
  | refl => exact ⟨h, List.suffix_rfl⟩
  | step hruns _ hP hserves ih =>
    obtain ⟨hmid, hsuffix⟩ := ih h
    obtain ⟨hend, hsuffix'⟩ := hmid.serves hP hserves
    exact ⟨hend, hsuffix.trans hsuffix'⟩

/-- A history that has grown has another last generation. -/
theorem history_eq_of_head {before after : List String} {g : String}
    (hincreasing : after.Pairwise fun later earlier ↦ number earlier < number later)
    (hsuffix : before <:+ after) (hbefore : before.head? = some g) (hafter : after.head? = some g) :
    after = before := by
  obtain ⟨new, rfl⟩ := hsuffix
  cases new with
  | nil => rfl
  | cons first new =>
    obtain rfl : first = g := Option.some.inj hafter
    have hmem : first ∈ new ++ before := List.mem_append_right _ (List.mem_of_mem_head? hbefore)
    exact absurd (List.rel_of_pairwise_cons hincreasing hmem) (lt_irrefl _)

/-- **Generations increase, and a request that asks for a generation that was seen is carried out
only if nothing was stored under the key since then**, in every run whose writes have something to
go by. -/
theorem generations_increase (E : Env) (C : Crates) (combine : UInt32 → UInt32 → ℕ → UInt32)
    (b : String) (key : Text) (t₀ t₁ t₂ : Time) (S₀ S₁ S₂ : System)
    (hhistory : history b key S₀.log = []) (hshown : shown S₀.vault b key = none)
    (hruns₁ : Runs E C combine (WritesAhead E C b key) t₀ S₀ t₁ S₁)
    (hruns₂ : Runs E C combine (WritesAhead E C b key) t₁ S₁ t₂ S₂) :
    (history b key S₂.log).Pairwise (fun later earlier ↦ number earlier < number later) ∧
      (∀ g, shownGeneration S₂.vault b key = some g → (history b key S₂.log).head? = some g) ∧
      ∀ g, shownGeneration S₁.vault b key = some g →
        ∀ (a : Arrival) (response : Response) (T : System), t₂ ≤ a.now →
          a.Serves E C combine S₂ (.ok response) T → CarriedOut a.req response a.target →
          ∀ i, intent E C a.target a.req S₂ = some i → i.bucket = b → i.key = key →
            i.guard = some g → history b key S₂.log = history b key S₁.log := by
  obtain ⟨hordered₁, -⟩ := (Ordered.of_fresh hhistory hshown).runs hruns₁
  obtain ⟨hordered₂, hsuffix⟩ := hordered₁.runs hruns₂
  refine ⟨hordered₂.increasing, hordered₂.current, ?_⟩
  rintro g hg a response T - hserves hdone i hi rfl rfl hguard
  have hseen : (history i.bucket i.key S₁.log).head? = some g := hordered₁.current g hg
  have hpositive : 0 < number g := hordered₁.positive g (List.mem_of_mem_head? hseen)
  rcases matches_of_carriedOut hi hguard hserves.1 hdone with rfl | ⟨o, ho, hgeneration⟩
  · exact absurd hpositive (by decide)
  · have hcurrent : shownGeneration S₂.vault i.bucket i.key = some g := by
      rw [shownGeneration_eq, ho, Option.map_some, hgeneration]
    exact history_eq_of_head hordered₂.increasing hsuffix hseen (hordered₂.current g hcurrent)

end Ordered

/-! ### One millisecond -/

/-- An empty bucket. -/
def emptyGallery : System where
  vault := { buckets := (∅ : Table String Bucket).set "gallery" (some {}) }

/-- An upload of the object `cat`, at one fixed time. -/
def catUpload : Arrival where
  now := 1700000000000000000
  target := .jsonUpload "gallery"
  req :=
    { method := .post
      query := ((∅ : Table String String).set "uploadType" (some "media")).set "name" (some "cat") }
  inRange := by decide

/-- The deletion of the object `cat`, in the same millisecond. -/
def catDeletion : Arrival where
  now := 1700000000000000000
  target := .jsonObject "gallery" "cat".toList
  req := { method := .delete }
  inRange := by decide

/-- The system after a request during which nothing fails. -/
def afterwards (a : Arrival) (S : System) : System :=
  ((handleRequest .simple .simple a.now (fun crc _ _ ↦ crc) a.target a.req).calm S).2

theorem serves_afterwards {a : Arrival} {S : System} {l : List Event}
    (hr : ((handleRequest .simple .simple a.now (fun crc _ _ ↦ crc) a.target
      a.req).calm S).1.isSome = true)
    (hlog : (afterwards a S).log = l ++ S.log) (hclean : l.all (· matches .stored ..) = true) :
    ∃ r, a.Serves .simple .simple (fun crc _ _ ↦ crc) S r (afterwards a S) := by
  obtain ⟨r, hr⟩ := Option.isSome_iff_exists.1 hr
  refine ⟨r, returns_run hr, l, hlog, fun call hcall ↦ ?_⟩
  exact absurd (List.all_eq_true.1 hclean _ hcall) nofun

/-- The bucket with one object, and with a second one in its place. -/
def oneCat : System := afterwards catUpload emptyGallery

/-- The bucket after the same upload once more. -/
def twoCats : System := afterwards catUpload oneCat

theorem serves_oneCat :
    ∃ r, catUpload.Serves .simple .simple (fun crc _ _ ↦ crc) emptyGallery r oneCat :=
  serves_afterwards (l := [.stored "gallery" "cat".toList "1700000000000" none])
    (by decide) (by decide) (by decide)

theorem serves_twoCats :
    ∃ r, catUpload.Serves .simple .simple (fun crc _ _ ↦ crc) oneCat r twoCats :=
  serves_afterwards (l := [.stored "gallery" "cat".toList "1700000000001" none])
    (by decide) (by decide) (by decide)

/-- Two objects in one millisecond, one in place of the other. -/
theorem two_cats_increase :
    (history "gallery" "cat".toList twoCats.log).Pairwise
      (fun later earlier ↦ number earlier < number later) := by
  obtain ⟨_, hfirst⟩ := serves_oneCat
  obtain ⟨_, hsecond⟩ := serves_twoCats
  have hfree : Ahead "gallery" "cat".toList catUpload.now emptyGallery := by
    unfold Ahead
    rw [show shownGeneration emptyGallery.vault "gallery" "cat".toList = none by decide]
    exact nofun
  have hover : Ahead "gallery" "cat".toList catUpload.now oneCat := by
    unfold Ahead
    rw [show shownGeneration oneCat.vault "gallery" "cat".toList = some "1700000000000" by
      decide]
    decide
  exact (generations_increase .simple .simple (fun crc _ _ ↦ crc) "gallery" "cat".toList 0 _ _
    emptyGallery oneCat twoCats rfl (by decide)
    (.step (.refl 0 _) (Nat.zero_le _) (fun _ _ ↦ hfree) hfirst)
    (.step (.refl _ _) le_rfl (fun _ _ ↦ hover) hsecond)).1

/-- **The generation of the first object comes back.** -/
theorem generations_repeat :
    ¬ ∀ (t₀ t₁ : Time) (S₀ S₁ : System), history "gallery" "cat".toList S₀.log = [] →
      shown S₀.vault "gallery" "cat".toList = none →
      Runs .simple .simple (fun crc _ _ ↦ crc) (fun _ _ ↦ True) t₀ S₀ t₁ S₁ →
      (history "gallery" "cat".toList S₁.log).Pairwise
        fun later earlier ↦ number earlier < number later := by
  intro hall
  obtain ⟨_, hfirst⟩ := serves_oneCat
  obtain ⟨_, hsecond⟩ := serves_twoCats
  obtain ⟨_, hdeletion⟩ := serves_afterwards (a := catDeletion) (S := twoCats) (l := [])
    (by decide) (by decide) rfl
  obtain ⟨_, hthird⟩ := serves_afterwards (a := catUpload) (S := afterwards catDeletion twoCats)
    (l := [.stored "gallery" "cat".toList "1700000000000" none])
    (by decide) (by decide) (by decide)
  have hsame : catUpload.now = catDeletion.now := rfl
  have hruns := Runs.step (P := fun _ _ ↦ True) (.refl 0 emptyGallery) (Nat.zero_le _) trivial hfirst
  have hincreasing := hall 0 _ emptyGallery _ rfl (by decide)
    (((hruns.step le_rfl trivial hsecond).step hsame.le trivial hdeletion).step hsame.ge trivial hthird)
  rw [show history "gallery" "cat".toList
      (afterwards catUpload (afterwards catDeletion twoCats)).log =
    ["1700000000000", "1700000000001", "1700000000000"] by decide] at hincreasing
  exact absurd (List.rel_of_pairwise_cons hincreasing List.mem_cons_self) (by decide)

end Sqrzl.Gcs
