import SqrzlEmulator.Capture.Recovery
import SqrzlEmulator.Data.Results
import SqrzlEmulator.Prog.Footprint
import SqrzlEmulator.Sms.Filesystem

/-!
# What a deletion of text messages removes

The order of an SMS store (`Ordered`): a message is stored under its own identity and has an entry in
the conversation with its peer, an entry of a conversation belongs to no message with another peer,
and a callback attempt is stored under its own identity.

A deletion changes nothing, or it **first removes the message, and then nothing but what belongs to
it** (`Gone`): its entry, its media, its callback attempts, and the conversation if no other message
has an entry there. So it keeps the order of the store, wherever it is stopped (`Gone.ordered`). The
directory of the media of a message whose identity is a single dot is the one of all media; such a
deletion never succeeds.
-/

namespace Sqrzl.Sms

open Capture Results

variable {S : Store} {d s t : SmsDisk} {peer i : String}

/-! ### Names -/

namespace Store

variable (S)

/-- The file of a message. -/
def messageFile (i : String) : DiskPath := S.root ++ ["messages", i ++ ".json"]

/-- The conversation with a peer. -/
def conversation (peer : String) : DiskPath := S.root ++ ["conversations", S.digest peer]

/-- The entry of a message in a conversation. -/
def entryFile (peer i : String) : DiskPath :=
  S.root ++ ["conversations", S.digest peer, i ++ ".idx"]

/-- The sidecar of a conversation. -/
def sidecarFile (peer : String) : DiskPath := S.root ++ ["conversations", S.digest peer ++ ".peer"]

/-- The file of a callback attempt. -/
def callbackFile (a : String) : DiskPath := S.root ++ ["callbacks", a ++ ".json"]

end Store

/-- A message that is stored. -/
abbrev messageNode (m : SmsMessage) : Node (Content (Document SmsJson)) :=
  .file (.data (.message (.message m)))

/-- A callback attempt that is stored. -/
abbrev attemptNode (a : CallbackAttempt) : Node (Content (Document SmsJson)) :=
  .file (.data (.message (.attempt a)))

/-- An identity that names a directory of its own. -/
def Usual (i : String) : Prop := validateId i = .ok () ∧ i ≠ "."

theorem ne_empty_of_validateId (h : validateId i = .ok ()) : i ≠ "" := by
  rintro rfl
  cases h

theorem stem_eq_some_iff {extension name : String} :
    stem extension name = some i ↔ name = i ++ ("." ++ extension) ∧ i ≠ "" := by
  have hdotted : ("." ++ extension).toList = '.' :: extension.toList := String.toList_append
  rw [stem, ← hdotted]
  constructor
  · intro h
    split_ifs at h with hcond
    rw [Bool.and_eq_true, decide_eq_true_eq, decide_eq_true_eq] at hcond
    obtain ⟨⟨pre, hpre⟩, hlen⟩ := hcond
    rw [← hpre, List.length_append] at h hlen
    rw [Nat.add_sub_cancel_right, List.take_left'  rfl] at h
    obtain rfl := Option.some.inj h
    refine ⟨String.toList_injective ?_, ?_⟩
    · rw [String.toList_append, String.toList_ofList, hpre]
    · intro hempty
      have hnil := congrArg String.toList hempty
      rw [String.toList_ofList] at hnil
      subst hnil
      simp at hlen
  · rintro ⟨rfl, hne⟩
    have hpos : 0 < i.toList.length :=
      List.length_pos_iff.2 fun h ↦ hne (String.toList_injective h)
    have hname : (i ++ ("." ++ extension)).toList = i.toList ++ ("." ++ extension).toList :=
      String.toList_append
    rw [hname, List.length_append, Nat.add_sub_cancel_right, List.take_left' rfl,
      String.ofList_toList, if_pos]
    rw [Bool.and_eq_true, decide_eq_true_eq, decide_eq_true_eq]
    exact ⟨List.suffix_append _ _, by omega⟩

theorem stem_json (h : i ≠ "") : stem "json" (i ++ ".json") = some i :=
  stem_eq_some_iff.2 ⟨rfl, h⟩

theorem stem_idx (h : i ≠ "") : stem "idx" (i ++ ".idx") = some i :=
  stem_eq_some_iff.2 ⟨rfl, h⟩

theorem messagePath_eq : S.messagePath i = (validateId i).map fun _ ↦ S.messageFile i := by
  rw [Store.messagePath]
  cases validateId i <;> rfl

theorem callbackPath_eq {a : String} :
    S.callbackPath a = (validateId a).map fun _ ↦ S.callbackFile a := by
  rw [Store.callbackPath]
  cases validateId a with
  | error e => rfl
  | ok u =>
    show Except.ok (S.root ++ ["callbacks"] ++ [a ++ ".json"]) = _
    rw [List.append_assoc]
    rfl

theorem peerIndexDir_eq : S.peerIndexDir peer = (S.peerHash peer).map fun _ ↦ S.conversation peer := by
  rw [Store.peerIndexDir, Store.peerHash]
  split_ifs <;> rfl

theorem peerSidecar_eq : S.peerSidecar peer = (S.peerHash peer).map fun _ ↦ S.sidecarFile peer := by
  rw [Store.peerSidecar, Store.peerHash]
  split_ifs <;> rfl

/-! ### Ordered stores -/

/-- **The order of an SMS store.** -/
structure Ordered (S : Store) (d : SmsDisk) : Prop where
  dirs : ∀ D ∈ ["messages", "conversations", "media", "callbacks"], d.isDir (S.root ++ [D]) = true
  messages : ∀ f n, d[S.root ++ ["messages", f]]? = some n → ∃ m, n = messageNode m ∧
    f = m.messageId ++ ".json" ∧ Usual m.messageId
  entries : ∀ D f n, d[S.root ++ ["conversations", D, f]]? = some n → ∃ peer i,
    n = .file (.data (.bytes [])) ∧ D = S.digest peer ∧ f = i ++ ".idx" ∧ Usual i ∧
      ∀ m, d[S.messageFile i]? = some (messageNode m) → m.peer = peer
  rooms : ∀ D n, d[S.root ++ ["conversations", D]]? = some n →
    n = .directory ∨ ∃ p, D = S.digest p ++ ".peer"
  homes : ∀ D f, (d[S.root ++ ["conversations", D, f]]?).isSome = true →
    d.isDir (S.root ++ ["conversations", D]) = true
  indexed : ∀ i m, d[S.messageFile i]? = some (messageNode m) →
    (d[S.entryFile m.peer i]?).isSome = true
  callbacks : ∀ f n, d[S.root ++ ["callbacks", f]]? = some n → ∃ a, n = attemptNode a ∧
    f = a.attemptId ++ ".json" ∧ validateId a.attemptId = .ok ()

theorem Ordered.message_of_file (h : Ordered S d) {n : Node (Content (Document SmsJson))}
    (hn : d[S.messageFile i]? = some n) : ∃ m, n = messageNode m ∧ m.messageId = i ∧ Usual i := by
  obtain ⟨m, rfl, hname, husual⟩ := h.messages _ n hn
  obtain rfl := (String.append_left_inj _).1 hname
  exact ⟨m, rfl, rfl, husual⟩

theorem Ordered.entry_of_file (h : Ordered S d) (hn : (d[S.entryFile peer i]?).isSome = true) :
    Usual i ∧ ∀ m, d[S.messageFile i]? = some (messageNode m) → m.peer = peer := by
  obtain ⟨n, hn⟩ := Option.isSome_iff_exists.1 hn
  obtain ⟨peer', i', -, hD, hname, husual, hpeer⟩ := h.entries _ _ n hn
  obtain rfl := (String.append_left_inj _).1 hname
  obtain rfl := S.digest_injective hD
  exact ⟨husual, hpeer⟩

theorem Ordered.attempt_of_file (h : Ordered S d) {a : String} {n : Node (Content (Document SmsJson))}
    (hn : d[S.callbackFile a]? = some n) :
    ∃ attempt, n = attemptNode attempt ∧ attempt.attemptId = a ∧ validateId a = .ok () := by
  obtain ⟨attempt, rfl, hname, hvalid⟩ := h.callbacks _ n hn
  obtain rfl := (String.append_left_inj _).1 hname
  exact ⟨attempt, rfl, rfl, hvalid⟩

/-! ### What an ordered store answers -/

/-- The callback attempt of a message that a file holds. -/
def attemptOf (S : Store) (d : SmsDisk) (i name : String) : Option CallbackAttempt :=
  match d[S.root ++ ["callbacks", name]]? with
  | some (.file (.data (.message (.attempt attempt)))) =>
    if attempt.messageId = i then some attempt else none
  | _ => none

theorem Ordered.listCallbacks_eq (h : Ordered S d) (i : String) : S.listCallbacks i d =
    .ok (((d.entries S.callbackRoot).filterMap (attemptOf S d i)).insertionSort fun a b ↦
      a.attemptedAt < b.attemptedAt ∨ a.attemptedAt = b.attemptedAt ∧
        a.attemptId ≤ b.attemptId) := by
  have hdir : d.isDir S.callbackRoot = true := h.dirs "callbacks" (by decide)
  have hentries : (d.entries S.callbackRoot).mapM (S.callbackEntry i d) =
      .ok ((d.entries S.callbackRoot).map (attemptOf S d i)) := by
    refine mapM_pure fun name hname ↦ ?_
    rw [Disk.mem_entries] at hname
    obtain ⟨n, hn⟩ := Option.isSome_iff_exists.1 hname
    rw [Store.callbackRoot, List.append_assoc] at hn
    obtain ⟨attempt, rfl, rfl, hvalid⟩ := h.callbacks _ n hn
    rw [Store.callbackEntry, attemptOf, stem_json (ne_empty_of_validateId hvalid),
      Option.isSome_some, if_pos rfl, Store.callbackRoot, List.append_assoc]
    rw [show S.root ++ (["callbacks"] ++ [attempt.attemptId ++ ".json"]) =
      S.root ++ ["callbacks", attempt.attemptId ++ ".json"] from rfl] at hn ⊢
    rw [hn]
  rw [Store.listCallbacks, if_pos hdir, hentries]
  show Except.ok (List.insertionSort _ (List.filterMap id (List.map _ _))) = _
  rw [List.filterMap_map]
  rfl

theorem Ordered.mem_listCallbacks (h : Ordered S d) {l : List CallbackAttempt}
    (hl : S.listCallbacks i d = .ok l) {a : CallbackAttempt} : a ∈ l ↔
      d[S.callbackFile a.attemptId]? = some (attemptNode a) ∧ a.messageId = i := by
  rw [h.listCallbacks_eq] at hl
  rw [← Except.ok.inj hl, List.mem_insertionSort, List.mem_filterMap]
  constructor
  · rintro ⟨name, -, hname⟩
    unfold attemptOf at hname
    split at hname
    · next attempt hnode =>
      split_ifs at hname with hi
      obtain rfl := Option.some.inj hname
      obtain ⟨attempt', heq, rfl, -⟩ := h.callbacks _ _ hnode
      cases heq
      exact ⟨hnode, hi⟩
    · cases hname
  · rintro ⟨hnode, hi⟩
    refine ⟨a.attemptId ++ ".json", ?_, ?_⟩
    · rw [Disk.mem_entries, Store.callbackRoot, List.append_assoc]
      show (d[S.callbackFile a.attemptId]?).isSome = true
      rw [hnode]
      rfl
    · rw [attemptOf]
      rw [Store.callbackFile] at hnode
      rw [hnode]
      exact if_pos hi

theorem messageIdsForPeer_eq : S.messageIdsForPeer peer d = (S.peerHash peer).map fun _ ↦
    if d.isDir (S.conversation peer) then
      ((d.entries (S.conversation peer)).filterMap (stem "idx")).insertionSort (· ≤ ·) else [] := by
  rw [Store.messageIdsForPeer, peerIndexDir_eq]
  cases S.peerHash peer <;> rfl

/-- The identities of a conversation are those of its entries. -/
theorem Ordered.mem_messageIdsForPeer (hd : Ordered S d) {ids : List String}
    (h : S.messageIdsForPeer peer d = .ok ids) {j : String} :
    j ∈ ids ↔ (d[S.entryFile peer j]?).isSome = true := by
  rw [messageIdsForPeer_eq] at h
  cases hpeer : S.peerHash peer with
  | error e =>
    rw [hpeer] at h
    cases h
  | ok hash =>
    rw [hpeer] at h
    rw [← Except.ok.inj h]
    split_ifs with hdir
    · rw [List.mem_insertionSort, List.mem_filterMap]
      have hpath : ∀ name, S.conversation peer ++ [name] =
          S.root ++ ["conversations", S.digest peer, name] := by
        intro name
        rw [Store.conversation, List.append_assoc]
        rfl
      constructor
      · rintro ⟨name, hname, hstem⟩
        rw [Disk.mem_entries, hpath] at hname
        obtain ⟨rfl, -⟩ := stem_eq_some_iff.1 hstem
        exact hname
      · intro hentry
        have husual := (hd.entry_of_file hentry).1
        refine ⟨j ++ ".idx", ?_, stem_idx (ne_empty_of_validateId husual.1)⟩
        rw [Disk.mem_entries, hpath]
        exact hentry
    · exact iff_of_false List.not_mem_nil fun h ↦ hdir (hd.homes _ _ h)

/-! ### What a deletion removes -/

/-- What a deletion of a message may remove. -/
inductive Removes (S : Store) (d : SmsDisk) (peer i : String) : DiskPath → Prop
  | message : Removes S d peer i (S.messageFile i)
  | entry : Removes S d peer i (S.entryFile peer i)
  | media {q : DiskPath} (h : S.mediaDir i <+: q) (hne : q ≠ S.mediaRoot) : Removes S d peer i q
  | callback {a : CallbackAttempt} (h : d[S.callbackFile a.attemptId]? = some (attemptNode a))
      (ha : a.messageId = i) : Removes S d peer i (S.callbackFile a.attemptId)
  /-- The conversation, when no other message has an entry there. -/
  | conversation {q : DiskPath} (hends : ∀ j, (d[S.entryFile peer j]?).isSome = true → j = i)
      (h : S.conversation peer <+: q ∨ q = S.sidecarFile peer) : Removes S d peer i q

/-- **What a deletion has done** that has got beyond its checks. -/
structure Gone (S : Store) (d : SmsDisk) (peer i : String) (t : SmsDisk) : Prop where
  own : ∀ m, d[S.messageFile i]? = some (messageNode m) → m.peer = peer
  message : t[S.messageFile i]? = none
  home : t[S.conversation peer]? = d[S.conversation peer]? ∨ t[S.entryFile peer i]? = none
  within : Disk.Within (fun q n ↦ n = none ∧ Removes S d peer i q) d t

section Gone

theorem set_none_eq_none {q p : DiskPath} (h : t[p]? = none) : (Table.set t q none)[p]? = none := by
  rw [Table.getElem?_set, h, ite_self]

/-- One more removal. The conversation goes after the entry. -/
theorem Gone.set_none (h : Gone S d peer i t) {q : DiskPath} (hq : Removes S d peer i q)
    (hhome : q = S.conversation peer → t[S.entryFile peer i]? = none) :
    Gone S d peer i (Table.set t q none) where
  own := h.own
  message := set_none_eq_none h.message
  home := by
    by_cases heq : q = S.conversation peer
    · exact .inr (set_none_eq_none (hhome heq))
    · refine h.home.imp (fun hsame ↦ ?_) set_none_eq_none
      rw [Table.getElem?_set, if_neg fun h ↦ heq h.symm, hsame]
  within := h.within.set ⟨rfl, hq⟩

/-- What is there was there before. -/
theorem Gone.node (h : Gone S d peer i t) {q : DiskPath} {n : Node (Content (Document SmsJson))}
    (hn : t[q]? = some n) : d[q]? = some n := by
  rcases h.within q with heq | ⟨hnone, -⟩
  · rw [← heq, hn]
  · rw [hn] at hnone
    cases hnone

theorem Gone.isSome (h : Gone S d peer i t) {q : DiskPath} (hn : (t[q]?).isSome = true) :
    (d[q]?).isSome = true := by
  obtain ⟨n, hn⟩ := Option.isSome_iff_exists.1 hn
  rw [h.node hn]
  rfl

theorem Gone.same (h : Gone S d peer i t) {q : DiskPath} (hq : ¬ Removes S d peer i q) :
    t[q]? = d[q]? :=
  (h.within q).resolve_right fun hr ↦ hq hr.2

theorem mediaDir_eq : S.mediaDir i = S.root ++ ["media"] ∨ S.mediaDir i = S.root ++ ["media", i] := by
  rw [Store.mediaDir, Store.mediaRoot]
  split_ifs
  · exact .inl rfl
  · rw [List.append_assoc]
    exact .inr rfl

theorem Removes.length {q : DiskPath} (h : Removes S d peer i q) : S.root.length + 2 ≤ q.length := by
  cases h with
  | message => simp [Store.messageFile]
  | entry => simp [Store.entryFile]
  | media h hne =>
    have hlen := h.length_le
    rcases mediaDir_eq (S := S) (i := i) with heq | heq
    · rw [heq] at h hlen
      rcases Nat.lt_or_ge (S.root ++ ["media"]).length q.length with hlt | hge
      · simp only [List.length_append, List.length_singleton] at hlt
        omega
      · exact absurd (h.eq_of_length_le hge).symm hne
    · rw [heq] at hlen
      simpa using hlen
  | callback => simp [Store.callbackFile]
  | conversation _ h =>
    rcases h with h | rfl
    · simpa [Store.conversation] using h.length_le
    · simp [Store.sidecarFile]

theorem removes_iff {q : DiskPath} : Removes S d peer i q ↔
    q = S.messageFile i ∨ q = S.entryFile peer i ∨ (S.mediaDir i <+: q ∧ q ≠ S.mediaRoot) ∨
      (∃ a, q = S.callbackFile a.attemptId ∧ d[S.callbackFile a.attemptId]? = some (attemptNode a) ∧
        a.messageId = i) ∨
      (∀ j, (d[S.entryFile peer j]?).isSome = true → j = i) ∧
        (S.conversation peer <+: q ∨ q = S.sidecarFile peer) := by
  constructor
  · intro h
    cases h with
    | message => exact .inl rfl
    | entry => exact .inr (.inl rfl)
    | media h hne => exact .inr (.inr (.inl ⟨h, hne⟩))
    | callback h ha => exact .inr (.inr (.inr (.inl ⟨_, rfl, h, ha⟩)))
    | conversation hends h => exact .inr (.inr (.inr (.inr ⟨hends, h⟩)))
  · rintro (rfl | rfl | ⟨h, hne⟩ | ⟨a, rfl, h, ha⟩ | ⟨hends, h⟩)
    · exact .message
    · exact .entry
    · exact .media h hne
    · exact .callback h ha
    · exact .conversation hends h

/-- A path in another directory than the one of the media. -/
theorem not_mediaDir_isPrefix {D : String} {rest : DiskPath} (h : D ≠ "media") :
    ¬ S.mediaDir i <+: S.root ++ D :: rest := by
  intro hpre
  rcases mediaDir_eq (S := S) (i := i) with heq | heq <;>
    · rw [heq, List.prefix_append_right_inj, List.cons_prefix_cons] at hpre
      exact h hpre.1.symm

theorem Removes.of_messages {f : String} (h : Removes S d peer i (S.root ++ ["messages", f])) :
    f = i ++ ".json" := by
  rcases removes_iff.1 h with h | h | ⟨h, -⟩ | ⟨a, h, -⟩ | ⟨-, h | h⟩
  · simpa [Store.messageFile] using h
  · simp [Store.entryFile] at h
  · exact absurd h (not_mediaDir_isPrefix (by decide))
  · simp [Store.callbackFile] at h
  · simp [Store.conversation] at h
  · simp [Store.sidecarFile] at h

theorem Removes.of_callbacks {f : String} (h : Removes S d peer i (S.root ++ ["callbacks", f])) :
    ∃ a, f = a.attemptId ++ ".json" ∧ d[S.callbackFile a.attemptId]? = some (attemptNode a) ∧
      a.messageId = i := by
  rcases removes_iff.1 h with h | h | ⟨h, -⟩ | ⟨a, h, hnode⟩ | ⟨-, h | h⟩
  · simp [Store.messageFile] at h
  · simp [Store.entryFile] at h
  · exact absurd h (not_mediaDir_isPrefix (by decide))
  · exact ⟨a, by simpa [Store.callbackFile] using h, hnode⟩
  · simp [Store.conversation] at h
  · simp [Store.sidecarFile] at h

theorem Removes.of_entry {D f : String}
    (h : Removes S d peer i (S.root ++ ["conversations", D, f])) : D = S.digest peer ∧
      (f = i ++ ".idx" ∨ ∀ j, (d[S.entryFile peer j]?).isSome = true → j = i) := by
  rcases removes_iff.1 h with h | h | ⟨h, -⟩ | ⟨a, h, -⟩ | ⟨hends, h | h⟩
  · simp [Store.messageFile] at h
  · have hparts : D = S.digest peer ∧ f = i ++ ".idx" := by simpa [Store.entryFile] using h
    exact ⟨hparts.1, .inl hparts.2⟩
  · exact absurd h (not_mediaDir_isPrefix (by decide))
  · simp [Store.callbackFile] at h
  · have hpart : S.digest peer = D := by simpa [Store.conversation] using h
    exact ⟨hpart.symm, .inr hends⟩
  · simp [Store.sidecarFile] at h

/-- A conversation, or a sidecar. -/
theorem Removes.of_conversations {D : String}
    (h : Removes S d peer i (S.root ++ ["conversations", D])) :
    (∀ j, (d[S.entryFile peer j]?).isSome = true → j = i) ∧
      (D = S.digest peer ∨ D = S.digest peer ++ ".peer") := by
  rcases removes_iff.1 h with h | h | ⟨h, -⟩ | ⟨a, h, -⟩ | ⟨hends, h | h⟩
  · simp [Store.messageFile] at h
  · simp [Store.entryFile] at h
  · exact absurd h (not_mediaDir_isPrefix (by decide))
  · simp [Store.callbackFile] at h
  · have hpart : S.digest peer = D := by simpa [Store.conversation] using h
    exact ⟨hends, .inl hpart.symm⟩
  · exact ⟨hends, .inr (by simpa [Store.sidecarFile] using h)⟩

theorem digest_ne_sidecar {p : String} : S.digest p ≠ S.digest peer ++ ".peer" := by
  intro h
  refine S.digest_plain p ?_
  rw [h, String.toList_append]
  exact List.mem_append_right _ (by decide)

/-- **A deletion keeps the order of a store**, wherever it is stopped. -/
theorem Gone.ordered (h : Gone S d peer i t) (hd : Ordered S d) : Ordered S t where
  dirs D hD := by
    have hsame : t[S.root ++ [D]]? = d[S.root ++ [D]]? := by
      refine h.same fun hr ↦ ?_
      have hlen := hr.length
      simp only [List.length_append, List.length_singleton] at hlen
      omega
    rw [isDir_congr hsame]
    exact hd.dirs D hD
  messages f n hn := hd.messages f n (h.node hn)
  entries D f n hn := by
    obtain ⟨peer', i', hnode, hD, hname, husual, hpeer⟩ := hd.entries D f n (h.node hn)
    exact ⟨peer', i', hnode, hD, hname, husual, fun m hm ↦ hpeer m (h.node hm)⟩
  rooms D n hn := hd.rooms D n (h.node hn)
  homes D f hf := by
    have hbefore := hd.homes D f (h.isSome hf)
    by_cases hsame : t[S.root ++ ["conversations", D]]? = d[S.root ++ ["conversations", D]]?
    · rw [isDir_congr hsame]
      exact hbefore
    · have hr := ((h.within _).resolve_left hsame).2
      obtain ⟨n, hn⟩ := Option.isSome_iff_exists.1 (h.isSome hf)
      obtain ⟨peer', j, -, rfl, rfl, -⟩ := hd.entries D f n hn
      obtain ⟨hends, heq | heq⟩ := hr.of_conversations
      · obtain rfl := S.digest_injective heq
        obtain rfl := hends j (h.isSome hf)
        have hnone := h.home.resolve_left hsame
        rw [Store.entryFile] at hnone
        rw [hnone] at hf
        cases hf
      · exact absurd heq digest_ne_sidecar
  indexed j m hm := by
    have hne : j ≠ i := by
      rintro rfl
      rw [h.message] at hm
      cases hm
    have hentry := hd.indexed j m (h.node hm)
    rw [h.same fun hr ↦ ?_]
    · exact hentry
    · obtain ⟨heq, hname | hends⟩ := Removes.of_entry hr
      · exact hne ((String.append_left_inj _).1 hname)
      · obtain rfl := S.digest_injective heq
        exact hne (hends j hentry)
  callbacks f n hn := hd.callbacks f n (h.node hn)

end Gone

/-! ### Runs of a deletion -/

section Runs

/-- How a deletion ends. -/
def Ends (S : Store) (d : SmsDisk) (peer i : String) (r : Except Error Unit) (t : SmsDisk) : Prop :=
  match r with
  | .ok _ => Gone S d peer i t ∧ Usual i ∧
    ∀ f a, t[S.root ++ ["callbacks", f]]? = some (attemptNode a) → a.messageId ≠ i
  | .error e => e = ioError ∨ validateId i = .error e ∨ S.peerHash peer = .error e ∨
    t = d ∧ ∃ m, d[S.messageFile i]? = some (messageNode m) ∧ m.peer ≠ peer

variable {Q : Except Error Unit → SmsDisk → Prop} {I : SmsDisk → Prop}

/-- Removing a directory, if it is there. -/
theorem wp_removeDirIfPresent {J : SmsDisk → Prop} {p : DiskPath} (hI : ∀ u, J u → I u)
    (hstep : ∀ u q, p <+: q → J u → J (Table.set u q none)) (herr : ∀ u, J u → Q (.error ioError) u)
    (hok : ∀ u, J u → Q (.ok ()) u) (hs : J s) :
    Prog.wp I (Store.removeDirIfPresent p) Q s := by
  rw [Store.removeDirIfPresent, Disk.query]
  refine Prog.wp_read_bind (hI s hs) ?_
  split_ifs
  · exact Disk.wp_removeDirAll hI (fun u q hq hu _ ↦ hstep u q hq hu) herr (fun u hu _ ↦ hok u hu) hs
  · exact ⟨hI s hs, hok s hs⟩

/-- Removing media. Without a name of their own they are never gone. -/
theorem wp_removeMedia {J : SmsDisk → Prop} (hI : ∀ u, J u → I u)
    (hstep : ∀ u q, S.mediaDir i <+: q → q ≠ S.mediaRoot → J u → J (Table.set u q none))
    (herr : ∀ u, J u → Q (.error ioError) u) (hok : ∀ u, J u → i ≠ "." → Q (.ok ()) u)
    (hmedia : s.isDir S.mediaRoot = true) (hs : J s) : Prog.wp I (S.removeMedia i) Q s := by
  rw [Store.removeMedia]
  split_ifs with hi
  · rw [Disk.query]
    refine Prog.wp_read_bind (hI s hs) ?_
    rw [if_pos (by rw [Disk.present, hmedia]; rfl), Prog.bind_eq, Prog.wp_bind]
    have hdir : S.mediaDir i = S.mediaRoot := if_pos hi
    rw [hdir] at hstep
    exact Disk.wp_clearDir hI (fun u q hq hne hu _ ↦ hstep u q hq hne hu) herr
      (fun u hu ↦ ⟨hI u hu, herr u hu⟩) hs
  · refine wp_removeDirIfPresent hI (fun u q hq ↦ hstep u q hq ?_) herr (fun u hu ↦ hok u hu hi) hs
    rintro rfl
    have hlen := hq.length_le
    rw [Store.mediaDir, if_neg hi, List.length_append, List.length_singleton] at hlen
    omega

/-- The entry of the message is gone as well. -/
def Leaving (S : Store) (d : SmsDisk) (peer i : String) (u : SmsDisk) : Prop :=
  Gone S d peer i u ∧ u[S.entryFile peer i]? = none

theorem Leaving.set_none (h : Leaving S d peer i t) {q : DiskPath} (hq : Removes S d peer i q) :
    Leaving S d peer i (Table.set t q none) :=
  ⟨h.1.set_none hq fun _ ↦ h.2, set_none_eq_none h.2⟩

theorem Gone.fails (h : Gone S d peer i t) :
    (t = d ∨ Gone S d peer i t) ∧ Ends S d peer i (.error ioError) t :=
  ⟨.inr h, .inl rfl⟩

/-- No callback attempt of the message is left but those of a list. -/
def Left (S : Store) (i : String) (l : List CallbackAttempt) (u : SmsDisk) : Prop :=
  ∀ f a, u[S.root ++ ["callbacks", f]]? = some (attemptNode a) → a.messageId = i → a ∈ l

theorem Left.set_none {l : List CallbackAttempt} (h : Left S i l t) (q : DiskPath) :
    Left S i l (Table.set t q none) := by
  intro f a hnode
  rw [Table.getElem?_set] at hnode
  split_ifs at hnode
  exact h f a hnode

/-- The callback attempts of the message go, one after the other. -/
theorem wp_removeCallbacks (hd : Ordered S d) {attempts : List CallbackAttempt}
    (hl : S.listCallbacks i s = .ok attempts) (hs : Leaving S d peer i s)
    (herr : ∀ u, Leaving S d peer i u → Q (.error ioError) u)
    (hI : ∀ u, Leaving S d peer i u → I u)
    (hok : ∀ u, Leaving S d peer i u → Left S i [] u → Q (.ok ()) u) :
    Prog.wp I (Prog.forEach attempts fun attempt ↦ do
      let path ← Prog.ofExcept (S.callbackPath attempt.attemptId)
      Store.removeFileIfPresent path) Q s := by
  have hordered := hs.1.ordered hd
  have hmem := fun a ↦ hordered.mem_listCallbacks hl (a := a)
  have hleft : Left S i attempts s := by
    intro f a hnode hi
    obtain ⟨a', heq, rfl, -⟩ := hordered.callbacks f _ hnode
    cases heq
    exact (hmem a).2 ⟨hnode, hi⟩
  refine Prog.wp_forEach (J := fun l u ↦ (∀ a ∈ l, a ∈ attempts) ∧ Leaving S d peer i u ∧ Left S i l u)
    ?_ (fun u hu ↦ ⟨hI u hu.2.1, hok u hu.2.1 hu.2.2⟩) _ ⟨fun a ha ↦ ha, hs, hleft⟩
  rintro a l u ⟨hsub, hu, hleft⟩
  obtain ⟨hnode, hi⟩ := (hmem a).1 (hsub a List.mem_cons_self)
  obtain ⟨a', heq, -, hvalid⟩ := hordered.attempt_of_file hnode
  rw [callbackPath_eq, hvalid]
  refine Prog.wp_ofExcept_bind (hI u hu) (fun e he ↦ by cases he) fun path hpath ↦ ?_
  obtain ⟨-, -, rfl⟩ := map_eq_ok_iff.1 hpath
  refine Disk.wp_call (hI u hu) (herr u hu) fun t ht ↦ ?_
  obtain ⟨-, rfl⟩ := Disk.unlink_eq_some ht
  have hu' := hu.set_none (.callback (hs.1.node hnode) hi)
  refine ⟨hI _ hu', fun b hb ↦ hsub b (List.mem_cons_of_mem _ hb), hu', fun f b hb hbi ↦ ?_⟩
  rcases List.mem_cons.1 (hleft.set_none _ f b hb hbi) with rfl | hb'
  · obtain ⟨b', heq, hname, -⟩ := (hu'.1.ordered hd).callbacks f _ hb
    cases heq
    have hnone : (Table.set u (S.callbackFile b.attemptId) none)[S.callbackFile b.attemptId]? = none := by
      rw [Table.getElem?_set, if_pos rfl]
    rw [hname] at hb
    cases hnone.symm.trans hb
  · exact hb'

/-- The conversation goes, if there is no entry in it. -/
theorem wp_removeConversation (hd : Ordered S d) {hash : String} (hpeer : S.peerHash peer = .ok hash)
    (hs : Leaving S d peer i s) (hleft : Left S i [] s)
    (herr : ∀ u, Leaving S d peer i u → Q (.error ioError) u)
    (hI : ∀ u, Leaving S d peer i u → I u)
    (hok : ∀ u, Leaving S d peer i u → Left S i [] u → Q (.ok ()) u) :
    Prog.wp I (do
      let ids ← Store.ask (S.messageIdsForPeer peer)
      if ids.isEmpty then
        Store.removeDirIfPresent (S.conversation peer)
        let sidecar ← Prog.ofExcept (S.peerSidecar peer)
        Store.removeFileIfPresent sidecar
      else return ()) Q s := by
  have hordered := hs.1.ordered hd
  rw [Store.ask, Prog.bind_eq, Prog.bind_eq, Prog.bind_assoc]
  refine Prog.wp_read_bind (hI s hs) ?_
  refine Prog.wp_ofExcept_bind (hI s hs) (fun e he ↦ ?_) fun ids hids ↦ ?_
  · rw [messageIdsForPeer_eq, hpeer] at he
    cases he
  split_ifs with hempty
  · have hends : ∀ j, (d[S.entryFile peer j]?).isSome = true → j = i := by
      intro j hj
      by_contra hne
      have hsame : s[S.entryFile peer j]? = d[S.entryFile peer j]? := by
        refine hs.1.same fun hr ↦ ?_
        obtain ⟨-, hname | hends⟩ := Removes.of_entry hr
        · exact hne ((String.append_left_inj _).1 hname)
        · exact hne (hends j hj)
      rw [← hsame, ← hordered.mem_messageIdsForPeer hids, List.isEmpty_iff.1 hempty] at hj
      exact absurd hj List.not_mem_nil
    rw [Prog.bind_eq, Prog.wp_bind]
    refine wp_removeDirIfPresent (J := fun u ↦ Leaving S d peer i u ∧ Left S i [] u)
      (fun u hu ↦ hI u hu.1)
      (fun u q hq hu ↦ ⟨hu.1.set_none (.conversation hends (.inl hq)), hu.2.set_none q⟩)
      (fun u hu ↦ herr u hu.1) (fun u hu ↦ ?_) ⟨hs, hleft⟩
    dsimp only
    rw [peerSidecar_eq, hpeer]
    refine Prog.wp_ofExcept_bind (hI u hu.1) (fun e he ↦ by cases he) fun path hpath ↦ ?_
    obtain rfl := Except.ok.inj hpath
    refine Disk.wp_call (hI u hu.1) (herr u hu.1) fun t ht ↦ ?_
    obtain ⟨-, rfl⟩ := Disk.unlink_eq_some ht
    have hu' := hu.1.set_none (.conversation hends (.inr rfl))
    exact ⟨hI _ hu', hok _ hu' (hu.2.set_none _)⟩
  · exact ⟨hI s hs, hok s hs hleft⟩

/-- **What a deletion does**, step by step. -/
theorem wp_deleteMessageLocked (hd : Ordered S d) :
    Prog.wp (fun t ↦ t = d ∨ Gone S d peer i t) (S.deleteMessageLocked peer i)
      (fun r t ↦ (t = d ∨ Gone S d peer i t) ∧ Ends S d peer i r t) d := by
  rw [Store.deleteMessageLocked, messagePath_eq]
  refine Prog.wp_ofExcept_bind (.inl rfl)
    (fun e he ↦ ⟨.inl rfl, .inr (.inl (map_eq_error_iff.1 he))⟩) fun path hpath ↦ ?_
  obtain ⟨⟨⟩, hvalid, rfl⟩ := map_eq_ok_iff.1 hpath
  refine Prog.wp_read_bind (.inl rfl) ?_
  split_ifs with hforeign
  · refine ⟨.inl rfl, .inl rfl, .inr (.inr (.inr ⟨rfl, ?_⟩))⟩
    rw [Store.isForeign, Store.readMessagePath] at hforeign
    cases hn : d[S.messageFile i]? with
    | none => rw [hn] at hforeign; cases hforeign
    | some n =>
      obtain ⟨m, rfl, -⟩ := hd.message_of_file hn
      rw [hn] at hforeign
      exact ⟨m, rfl, by simpa using hforeign⟩
  have hown : ∀ m, d[S.messageFile i]? = some (messageNode m) → m.peer = peer := by
    intro m hm
    rw [Store.isForeign, Store.readMessagePath, hm] at hforeign
    simpa using hforeign
  refine Disk.wp_call_bind (.inl rfl) ⟨.inl rfl, .inl rfl⟩ fun t₁ h₁ ↦ ?_
  obtain ⟨-, rfl⟩ := Disk.unlink_eq_some h₁
  -- from here on the message is gone, and more of what belongs to it goes
  have hg : Gone S d peer i (Table.set d (S.messageFile i) none) := by
    refine ⟨hown, ?_, .inl ?_, (Disk.Within.refl d).set ⟨rfl, .message⟩⟩
    · rw [Table.getElem?_set, if_pos rfl]
    · rw [Table.getElem?_set, if_neg (by simp [Store.conversation, Store.messageFile])]
  generalize Table.set d (S.messageFile i) none = s₁ at hg
  rw [peerIndexDir_eq]
  refine Prog.wp_ofExcept_bind (.inr hg)
    (fun e he ↦ ⟨.inr hg, .inr (.inr (.inl (map_eq_error_iff.1 he)))⟩) fun dir hdir ↦ ?_
  obtain ⟨hash, hpeer, rfl⟩ := map_eq_ok_iff.1 hdir
  have hentry : S.conversation peer ++ [i ++ ".idx"] = S.entryFile peer i := by
    rw [Store.conversation, List.append_assoc]
    rfl
  rw [hentry]
  refine Disk.wp_call_bind (.inr hg) hg.fails fun t₂ h₂ ↦ ?_
  obtain ⟨-, rfl⟩ := Disk.unlink_eq_some h₂
  have hleaving : Leaving S d peer i (Table.set s₁ (S.entryFile peer i) none) := by
    refine ⟨hg.set_none .entry fun heq ↦ ?_, ?_⟩
    · simp [Store.entryFile, Store.conversation] at heq
    · rw [Table.getElem?_set, if_pos rfl]
  generalize Table.set s₁ (S.entryFile peer i) none = s₂ at hleaving
  have hI : ∀ u, Leaving S d peer i u → u = d ∨ Gone S d peer i u := fun u hu ↦ .inr hu.1
  have herr : ∀ u, Leaving S d peer i u →
      (u = d ∨ Gone S d peer i u) ∧ Ends S d peer i (.error ioError) u := fun u hu ↦ hu.1.fails
  rw [Prog.bind_eq, Prog.wp_bind]
  refine wp_removeMedia hI (fun u q hq hne hu ↦ hu.set_none (.media hq hne)) herr
    (fun u hu hdot ↦ ?_) ((hleaving.1.ordered hd).dirs "media" (by decide)) hleaving
  refine Disk.wp_fault_bind (hI u hu) (herr u hu) ?_
  rw [Store.ask, Prog.bind_eq, Prog.bind_eq, Prog.bind_assoc]
  refine Prog.wp_read_bind (hI u hu) ?_
  refine Prog.wp_ofExcept_bind (hI u hu) (fun e he ↦ ?_) fun attempts hattempts ↦ ?_
  · rw [(hu.1.ordered hd).listCallbacks_eq] at he
    cases he
  rw [Prog.bind_eq, Prog.wp_bind]
  refine wp_removeCallbacks hd hattempts hu herr hI fun v hv hleft ↦ ?_
  refine wp_removeConversation hd hpeer hv hleft herr hI fun w hw hdone ↦ ?_
  refine ⟨.inr hw.1, hw.1, ⟨hvalid, hdot⟩, fun f a hnode ha ↦ ?_⟩
  exact absurd (hdone f a hnode ha) List.not_mem_nil

/-! ### Deleting a conversation -/

/-- **What the deletion of a conversation has done.** -/
structure Emptied (S : Store) (d : SmsDisk) (peer : String) (t : SmsDisk) : Prop where
  ordered : Ordered S t
  messages : ∀ j n, t[S.messageFile j]? = some n → d[S.messageFile j]? = some n
  others : ∀ j m, d[S.messageFile j]? = some (messageNode m) → m.peer ≠ peer →
    t[S.messageFile j]? = some (messageNode m)
  journal : ∀ rest, t[S.root ++ transactionsName :: rest]? = d[S.root ++ transactionsName :: rest]?

theorem Removes.not_journal {rest : DiskPath} :
    ¬ Removes S d peer i (S.root ++ transactionsName :: rest) := by
  rw [removes_iff]
  rintro (h | h | ⟨h, -⟩ | ⟨a, h, -⟩ | ⟨-, h | h⟩)
  · simp [Store.messageFile, transactionsName] at h
  · simp [Store.entryFile, transactionsName] at h
  · exact not_mediaDir_isPrefix (by decide) h
  · simp [Store.callbackFile, transactionsName] at h
  · simp [Store.conversation, transactionsName] at h
  · simp [Store.sidecarFile, transactionsName] at h

theorem Emptied.gone (h : Emptied S d peer s) (hgone : s = t ∨ Gone S s peer i t) :
    Emptied S d peer t := by
  rcases hgone with rfl | hgone
  · exact h
  refine ⟨hgone.ordered h.ordered, fun j n hn ↦ h.messages j n (hgone.node hn), fun j m hm hne ↦ ?_,
    fun rest ↦ ?_⟩
  · have hs := h.others j m hm hne
    rw [hgone.same fun hr ↦ ?_, hs]
    have hname : j ++ ".json" = i ++ ".json" := Removes.of_messages hr
    obtain rfl := (String.append_left_inj _).1 hname
    exact hne (hgone.own m hs)
  · rw [hgone.same Removes.not_journal, h.journal rest]

/-- **The deletion of a conversation**, message by message. It fails when a call does, or the peer is
blank. -/
theorem wp_deleteConversation (hd : Ordered S d) :
    Prog.wp (Emptied S d peer) (S.deleteConversation peer) (fun r t ↦ Emptied S d peer t ∧
      match r with
      | .ok _ => ∀ j m, t[S.messageFile j]? = some (messageNode m) → m.peer ≠ peer
      | .error e => e = ioError ∨ S.peerHash peer = .error e) d := by
  have hself : Emptied S d peer d := ⟨hd, fun _ _ h ↦ h, fun _ _ h _ ↦ h, fun _ ↦ rfl⟩
  rw [Store.deleteConversation, Store.ask, Prog.bind_eq, Prog.bind_eq, Prog.bind_assoc]
  refine Prog.wp_read_bind hself ?_
  refine Prog.wp_ofExcept_bind hself (fun e he ↦ ⟨hself, .inr ?_⟩) fun ids hids ↦ ?_
  · rw [messageIdsForPeer_eq] at he
    exact map_eq_error_iff.1 he
  have hpeer : ∀ e, S.peerHash peer ≠ .error e := by
    intro e he
    rw [messageIdsForPeer_eq, he] at hids
    cases hids
  have hmem := fun j ↦ hd.mem_messageIdsForPeer hids (j := j)
  refine Prog.wp_forEach (J := fun l u ↦ (∀ j ∈ l, j ∈ ids) ∧ Emptied S d peer u ∧
      ∀ j m, u[S.messageFile j]? = some (messageNode m) → m.peer = peer → j ∈ l) ?_ ?_ _
    ⟨fun j hj ↦ hj, hself, fun j m hm hown ↦ (hmem j).2 (hown ▸ hd.indexed j m hm)⟩
  · rintro i l u ⟨hsub, hu, hleft⟩
    have hentry := hd.entry_of_file ((hmem i).1 (hsub i List.mem_cons_self))
    refine Prog.wp_mono (wp_deleteMessageLocked hu.ordered) (fun t ht ↦ ?_) fun r t _ hr ↦ ?_
    · exact hu.gone (ht.imp_left Eq.symm)
    obtain ⟨ht, hends⟩ := hr
    have ht' := hu.gone (ht.imp_left Eq.symm)
    cases r with
    | ok =>
      obtain ⟨hgone, -, -⟩ := hends
      refine ⟨fun j hj ↦ hsub j (List.mem_cons_of_mem _ hj), ht', fun j m hm hown ↦ ?_⟩
      rcases List.mem_cons.1 (hleft j m (hgone.node hm) hown) with rfl | hj
      · rw [hgone.message] at hm
        cases hm
      · exact hj
    | error e =>
      refine ⟨ht', .inl ?_⟩
      rcases hends with he | he | he | ⟨-, m, hm, hne⟩
      · exact he
      · rw [hentry.1.1] at he
        cases he
      · exact absurd he (hpeer e)
      · exact absurd (hentry.2 m (hu.messages i _ hm)) hne
  · rintro u ⟨-, hu, hleft⟩
    exact ⟨hu, hu, fun j m hm hown ↦ absurd (hleft j m hm hown) List.not_mem_nil⟩

end Runs

end Sqrzl.Sms
