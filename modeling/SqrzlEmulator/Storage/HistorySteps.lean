import SqrzlEmulator.Storage.VersionSteps

/-!
# Runs of the history of a key

What the calls on a key make of its history, without the files: `History.Step` has one rule for each
kind of call. **Every step keeps the history filed** (`History.Sound`): the versions stay whole,
each under its own identity, so what is promoted is what has been kept. The identities come from a
counter (`History.Drawn`), so that a new version never meets an old one.
-/

namespace Sqrzl

namespace History

variable {E : Env} {key : Text} {v : Option VersioningState} {n n' : ℕ} {H H' : History}
  {id : String}

/-- The identities of the versions are among the first `n` that have been drawn, or are `null`. -/
def Drawn (E : Env) (n : ℕ) (H : History) : Prop :=
  ∀ id, H.Has id → id = "null" ∨ ∃ m < n, id = E.uuid m

theorem Drawn.mono {m : ℕ} (h : H.Drawn E n) (hm : n ≤ m) : H.Drawn E m := by
  intro id hid
  obtain hnull | ⟨k, hk, rfl⟩ := h id hid
  · exact .inl hnull
  · exact .inr ⟨k, hk.trans_le hm, rfl⟩

theorem le_drawnFor (v : Option VersioningState) (n : ℕ) : n ≤ drawnFor v n := by
  unfold drawnFor
  split
  · exact Nat.le_succ n
  · exact le_rfl

/-- The identity of a new version is drawn, or is `null`. -/
theorem drawn_versionIdFor (h : versionIdFor E v n = some id) :
    id = "null" ∨ ∃ m < drawnFor v n, id = E.uuid m := by
  rcases v with _ | _ | _
  · cases h
  · obtain rfl : E.uuid n = id := Option.some.inj h
    exact .inr ⟨n, Nat.lt_succ_self n, rfl⟩
  · exact .inl (Option.some.inj h).symm

theorem valid_versionIdFor (h : versionIdFor E v n = some id) : validVersionId id = true := by
  rcases v with _ | _ | _
  · cases h
  · obtain rfl : E.uuid n = id := Option.some.inj h
    exact E.uuid_valid n
  · obtain rfl : "null" = id := Option.some.inj h
    decide

/-! ### The versions after a step -/

/-- A snapshot of the current version, as it is kept. -/
def kept (st : Stored) : Stored :=
  (st.1, (st.2.withVersionId (some (keptId st.2))).serialized)

/-- **A snapshot touches the place of the current version at most.** -/
theorem versions_snapshot (v : Option VersioningState) (H : History) (j : String) :
    (H.snapshot v).versions j = H.versions j ∨ ∃ st, H.current = some st ∧ v.isSome ∧
      j = keptId st.2 ∧ (H.snapshot v).versions j = some (kept st) := by
  cases v with
  | none => exact .inl rfl
  | some v =>
    cases hcurrent : H.current with
    | none => exact .inl (by rw [snapshot_of_none hcurrent])
    | some st =>
      by_cases hkeep : v = .enabled ∨ keptId st.2 ≠ "null"
      · rw [snapshot_of_keep hcurrent hkeep]
        by_cases hj : j = keptId st.2
        · exact .inr ⟨st, rfl, rfl, hj, if_pos hj⟩
        · exact .inl (if_neg hj)
      · exact .inl (by rw [snapshot_of_not_keep hcurrent hkeep])

@[simp] theorem current_put (id : Option String) (data : Bytes) (o : Object) :
    (H.put v id data o).current = some (data, (o.withVersionId id).serialized) :=
  rfl

theorem versions_put (id : Option String) (data : Bytes) (o : Object) (j : String) :
    (H.put v id data o).versions j =
      if id = some "null" ∧ j = "null" then none else (H.snapshot v).versions j := by
  show (if j ∈ (putChange id).removeVersions then none else (H.snapshot v).versions j) = _
  congr 1
  unfold putChange
  split <;> simp [*]

theorem versions_delete (marker : Option Object) (j : String) :
    (H.delete v marker).versions j =
      if marker.bind (·.versionId) = some j then marker.map fun m ↦ ([], m.serialized)
      else if v = some .suspended ∧ j = "null" then none else (H.snapshot v).versions j := by
  show (if marker.bind (·.versionId) = some j then _
    else if j ∈ (deleteChange v marker).removeVersions then none else (H.snapshot v).versions j) = _
  congr 2
  unfold deleteChange
  split <;> simp [*]

theorem current_deleteVersion (promoted : Option Stored) (clearCurrent : Bool) :
    (H.deleteVersion id promoted clearCurrent).current =
      if promoted.isSome then promoted else if clearCurrent then none else H.current := by
  cases promoted with
  | none => simp [deleteVersion, change, deleteVersionChange]
  | some st => rfl

/-- The version that is current after a deletion was current before it, or is promoted. -/
theorem current_deleteVersion_cases {promoted : Option Stored} {clearCurrent : Bool} {st : Stored}
    (h : (H.deleteVersion id promoted clearCurrent).current = some st) :
    H.current = some st ∨ promoted = some st := by
  rw [current_deleteVersion] at h
  cases promoted with
  | some st' => exact .inr h
  | none =>
    simp only [Option.isSome_none, Bool.false_eq_true, if_false] at h
    split at h
    · cases h
    · exact .inl h

theorem versions_deleteVersion (promoted : Option Stored) (clearCurrent : Bool) (j : String) :
    (H.deleteVersion id promoted clearCurrent).versions j =
      if j = id ∨ promoted.bind (fun st ↦ st.2.versionId) = some j then none else H.versions j := by
  show (if j ∈ (deleteVersionChange id promoted clearCurrent).removeVersions then none
    else H.versions j) = _
  congr 1
  simp [deleteVersionChange, eq_comm]

/-! ### Steps -/

/-- What the calls on a key make of its history, when `n` identities have been drawn before and `n'`
after the call. -/
inductive Step (E : Env) (key : Text) (v : Option VersioningState) (n n' : ℕ) (H : History) :
    History → Prop
  | keep : Step E key v n n' H H
  /-- A write that fails may have kept the current version already. -/
  | snapshot : Step E key v n n' H (H.snapshot v)
  | put {data : Bytes} {o : Object} (hdrawn : drawnFor v n ≤ n') (hkey : o.key = key)
      (hsize : data.length = o.size) : Step E key v n n' H (H.put v (versionIdFor E v n) data o)
  | delete (hdrawn : drawnFor v n ≤ n') (now : Time) :
      Step E key v n n' H (H.delete v (markerFor E v n now key))
  | deleteVersion {id : String} {promoted : Option Stored} (hhas : H.Has id)
      (hpromotes : H.Promotes id promoted) :
      Step E key v n n' H (H.deleteVersion id promoted (H.clears id))
  | rewrite {data : Bytes} {o o' : Object} (hcurrent : H.current = some (data, o))
      (hkey : o'.key = o.key) (hsize : o'.size = o.size) (hid : o'.versionId = o.versionId) :
      Step E key v n n' H { H with current := some (data, o'.serialized) }
  | nameNull {data : Bytes} {o : Object} (hcurrent : H.current = some (data, o))
      (hid : o.versionId = none) : Step E key v n n' H
        { H with current := some (data, (o.withVersionId (some "null")).serialized) }

theorem Sound.kept (h : H.Sound key) {st : Stored} (hst : H.current = some st) :
    Whole key (kept st) ∧ (kept st).2.versionId = some (keptId st.2) ∧
      validVersionId (keptId st.2) = true := by
  obtain ⟨hwhole, hvalid⟩ := h.current st.1 st.2 hst
  refine ⟨⟨hwhole.key, hwhole.size, rfl⟩, rfl, ?_⟩
  unfold keptId
  cases hid : st.2.versionId with
  | none => decide
  | some id => exact hvalid id hid

theorem Sound.snapshot (h : H.Sound key) (v : Option VersioningState) :
    (H.snapshot v).Sound key where
  current := by
    rw [current_snapshot]
    exact h.current
  version j data o hj := by
    obtain heq | ⟨st, hst, -, rfl, heq⟩ := versions_snapshot v H j
    · exact h.version j data o (heq ▸ hj)
    · have hkept := h.kept hst
      rw [Option.some.inj (heq.symm.trans hj)] at hkept
      exact hkept

theorem markerFor_eq_some {now : Time} {m : Object} (h : markerFor E v n now key = some m) :
    ∃ id, versionIdFor E v n = some id ∧ m = deleteMarker E now key id := by
  obtain ⟨id, hid, rfl⟩ := Option.map_eq_some_iff.1 h
  exact ⟨id, hid, rfl⟩

/-- **Every step keeps a history filed.** -/
theorem Step.sound (hstep : Step E key v n n' H H') (h : H.Sound key) : H'.Sound key := by
  cases hstep with
  | keep => exact h
  | snapshot => exact h.snapshot v
  | @put data o hdrawn hkey hsize =>
    refine ⟨fun data' o' hst ↦ ?_, fun j data' o' hj ↦ ?_⟩
    · obtain ⟨rfl, rfl⟩ := Prod.mk.inj (Option.some.inj ((current_put _ data o).symm.trans hst))
      exact ⟨⟨hkey, hsize, rfl⟩, fun id hid ↦ valid_versionIdFor hid⟩
    · rw [versions_put] at hj
      split at hj
      · cases hj
      · exact (h.snapshot v).version j data' o' hj
  | delete hdrawn now =>
    refine ⟨nofun, fun j data o hj ↦ ?_⟩
    rw [versions_delete] at hj
    split at hj
    · next hmarker =>
      obtain ⟨m, hm, hid⟩ := Option.bind_eq_some_iff.1 hmarker
      obtain ⟨id, hversion, rfl⟩ := markerFor_eq_some hm
      obtain rfl : id = j := Option.some.inj hid
      rw [hm] at hj
      obtain ⟨rfl, rfl⟩ := Prod.mk.inj (Option.some.inj hj)
      exact ⟨⟨rfl, rfl, rfl⟩, rfl, valid_versionIdFor hversion⟩
    · split at hj
      · cases hj
      · exact (h.snapshot v).version j data o hj
  | @deleteVersion id promoted hhas hpromotes =>
    refine ⟨fun data o hst ↦ ?_, fun j data o hj ↦ ?_⟩
    · obtain hst' | hp := current_deleteVersion_cases hst
      · exact h.current data o hst'
      · obtain ⟨-, -, j, -, -, hj⟩ := hpromotes.publishable h data o hp
        obtain ⟨hwhole, hid, hvalid⟩ := h.version j data o hj
        exact ⟨hwhole, fun id hid' ↦ (Option.some.inj (hid.symm.trans hid')) ▸ hvalid⟩
    · rw [versions_deleteVersion] at hj
      split at hj
      · cases hj
      · exact h.version j data o hj
  | rewrite hcurrent hkey hsize hid =>
    obtain ⟨hwhole, hvalid⟩ := h.current _ _ hcurrent
    refine ⟨?_, h.version⟩
    rintro _ _ ⟨⟩
    exact ⟨⟨hkey.trans hwhole.key, hwhole.size.trans hsize.symm, rfl⟩,
      fun id hid' ↦ hvalid id (hid.symm.trans hid')⟩
  | nameNull hcurrent hid =>
    obtain ⟨hwhole, -⟩ := h.current _ _ hcurrent
    refine ⟨?_, h.version⟩
    rintro _ _ ⟨⟩
    refine ⟨⟨hwhole.key, hwhole.size, rfl⟩, ?_⟩
    rintro _ ⟨⟩
    decide

theorem Has.of_snapshot (h : (H.snapshot v).Has id) : H.Has id ∨ id = "null" := by
  rcases h with hversion | ⟨data, o, hcurrent, hid⟩
  · obtain heq | ⟨st, hst, -, rfl, -⟩ := versions_snapshot v H id
    · exact .inl (.inl (heq ▸ hversion))
    · unfold keptId
      cases hid : st.2.versionId with
      | none => exact .inr rfl
      | some id => exact .inl (.inr ⟨st.1, st.2, hst, hid⟩)
  · rw [current_snapshot] at hcurrent
    exact .inl (.inr ⟨data, o, hcurrent, hid⟩)

theorem Drawn.snapshot (h : H.Drawn E n) (v : Option VersioningState) :
    (H.snapshot v).Drawn E n :=
  fun id hid ↦ hid.of_snapshot.elim (h id) .inl

/-- **The identities of a history have been drawn.** -/
theorem Step.drawn (hstep : Step E key v n n' H H') (hn : n ≤ n') (h : H.Drawn E n)
    (hsound : H.Sound key) : H'.Drawn E n' := by
  have hold : (H.snapshot v).Drawn E n' := (h.snapshot v).mono hn
  have hnew : ∀ {id}, drawnFor v n ≤ n' → versionIdFor E v n = some id →
      id = "null" ∨ ∃ m < n', id = E.uuid m := by
    intro id hdrawn hid
    obtain hnull | ⟨m, hm, rfl⟩ := drawn_versionIdFor hid
    · exact .inl hnull
    · exact .inr ⟨m, hm.trans_le hdrawn, rfl⟩
  cases hstep with
  | keep => exact h.mono hn
  | snapshot => exact hold
  | @put data o hdrawn hkey hsize =>
    rintro id (hversion | ⟨data', o', hst, hid⟩)
    · rw [versions_put] at hversion
      split at hversion
      · cases hversion
      · exact hold id (.inl hversion)
    · obtain ⟨rfl, rfl⟩ := Prod.mk.inj (Option.some.inj ((current_put _ data o).symm.trans hst))
      exact hnew hdrawn hid
  | delete hdrawn now =>
    rintro id (hversion | ⟨data', o', hst, hid⟩)
    · rw [versions_delete] at hversion
      split at hversion
      · next hmarker =>
        obtain ⟨m, hm, hid⟩ := Option.bind_eq_some_iff.1 hmarker
        obtain ⟨id', hversion', rfl⟩ := markerFor_eq_some hm
        obtain rfl : id' = id := Option.some.inj hid
        exact hnew hdrawn hversion'
      · split at hversion
        · cases hversion
        · exact hold id (.inl hversion)
    · cases hst
  | @deleteVersion id promoted hhas hpromotes =>
    refine Drawn.mono (fun j hj ↦ h j ?_) hn
    rcases hj with hversion | ⟨data, o, hst, hid⟩
    · rw [versions_deleteVersion] at hversion
      split at hversion
      · cases hversion
      · exact .inl hversion
    · obtain hst' | hp := current_deleteVersion_cases hst
      · exact .inr ⟨data, o, hst', hid⟩
      · obtain ⟨-, -, j', hid', -, hj'⟩ := hpromotes.publishable hsound data o hp
        obtain rfl : j' = j := Option.some.inj (hid'.symm.trans hid)
        exact .inl (by rw [hj']; rfl)
  | rewrite hcurrent hkey hsize hid =>
    refine Drawn.mono (fun j hj ↦ h j ?_) hn
    rcases hj with hversion | ⟨data, o, hst, hid'⟩
    · exact .inl hversion
    · obtain ⟨rfl, rfl⟩ := Prod.mk.inj (Option.some.inj hst)
      exact .inr ⟨_, _, hcurrent, hid.symm.trans hid'⟩
  | nameNull hcurrent hid =>
    rintro j (hversion | ⟨data, o, hst, hid'⟩)
    · exact h.mono hn j (.inl hversion)
    · obtain ⟨rfl, rfl⟩ := Prod.mk.inj (Option.some.inj hst)
      exact .inl (Option.some.inj hid').symm

/-- Without versioning there are no versions before the current one. -/
theorem Step.plain (hstep : Step E key v n n' H H') (hv : v = none)
    (h : H.versions = fun _ ↦ none) : H'.versions = fun _ ↦ none := by
  subst hv
  cases hstep with
  | keep => exact h
  | snapshot => exact h
  | put hdrawn hkey hsize => exact versions_put_none.trans h
  | delete hdrawn now => exact versions_delete_none.trans h
  | deleteVersion hhas hpromotes =>
    funext j
    rw [versions_deleteVersion, h]
    exact ite_self none
  | rewrite hcurrent hkey hsize hid => exact h
  | nameNull hcurrent hid => exact h

end History

/-- **The deletion of a version of a record is one of its history**, and promotes what the record
promotes. -/
theorem KeyRecord.history_deleteVersion {e e' : KeyRecord} {key : Text} {id : String}
    (h : e.deleteVersion key id = .ok e') : ∃ promoted : Option Stored,
      e'.history = e.history.deleteVersion id promoted (e.history.clears id) ∧
      promoted.map Prod.snd = if e.history.clears id then e.promoted key id else none := by
  have hclears : (e.metadata.any (·.versionId = some id) || e.current.isNone) =
      e.history.clears id := by
    unfold metadata history History.clears
    cases e.current <;> simp
  unfold deleteVersion at h
  dsimp only at h
  rw [hclears] at h
  split at h
  · cases h
  split at h
  · cases h
  split at h
  · next hleaves =>
    rw [hleaves, if_pos rfl]
    split at h
    · next hpromoted =>
      cases h
      refine ⟨none, History.ext rfl (funext fun j ↦ ?_), hpromoted.symm⟩
      rw [History.versions_deleteVersion]
      simp [history, Table.getElem?_set]
    · next o hpromoted =>
      split at h
      · cases h
      · next id' hid =>
        split at h
        · cases h
        · next data _ _ =>
          cases h
          refine ⟨some (data, o), History.ext rfl (funext fun j ↦ ?_), hpromoted.symm⟩
          rw [History.versions_deleteVersion]
          simp only [history, Table.getElem?_set, Option.bind_some, hid, Option.some.injEq]
          grind
  · next hkeeps =>
    cases h
    rw [Bool.not_eq_true] at hkeeps
    rw [hkeeps]
    refine ⟨none, History.ext rfl (funext fun j ↦ ?_), rfl⟩
    rw [History.versions_deleteVersion]
    simp [history, Table.getElem?_set]

end Sqrzl
