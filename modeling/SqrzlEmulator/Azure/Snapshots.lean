import SqrzlEmulator.Azure.Directories
import SqrzlEmulator.Azure.Frames
import SqrzlEmulator.Azure.Outcomes
import SqrzlEmulator.Data.Base64

/-!
# Snapshots of blobs

A snapshot is an object of the container of its blob, under a key that begins with a reserved prefix
and goes on with the name of the blob, in the base64 alphabet for URLs, and the time of the
snapshot. The alphabet has no slash, so that **a key belongs to one blob and one time**
(`snapshotStorageKey_inj`). The directory of the object is named by a hash of the key, so that this
is true of the stored objects as long as no two keys in use have the same identity.

The names of blobs come from the path of the request, and nothing keeps a client from naming a blob
like the key of a snapshot: such a request can write the snapshot (`snapshot_is_overwritten`),
although the front door says that snapshots are read-only. Other requests leave a snapshot alone,
until one deletes it, by its time or with its blob (`snapshots_are_read_only`); what is asked of the
clock is that it does not give the time of the snapshot to another snapshot of the blob.
-/

namespace Sqrzl.Azure

open Prog Atomic

/-! ### Keys -/

/-- What is taken from the base64 encoder: it is one to one, and there is no slash in its
alphabet. -/
structure Codec.UrlSafe (C : Codec) : Prop where
  injective : Function.Injective C.urlSafe
  noSlash : ∀ text, '/' ∉ C.urlSafe text

section Keys

variable {C : Codec} {k k' : Text} {t t' : String}

/-- **The prefix of the snapshots of a blob** is the beginning of the keys of its snapshots only. -/
theorem snapshotKeysOf_prefix_iff (hC : C.UrlSafe) :
    snapshotKeysOf C k' <+: snapshotStorageKey C k t ↔ k' = k := by
  constructor
  · rintro ⟨rest, h⟩
    simp only [snapshotStorageKey, snapshotKeysOf, List.append_assoc, List.cons_append,
      List.nil_append] at h
    have hnames := List.tail_eq_of_cons_eq (List.append_cancel_left h)
    exact hC.injective (Percent.append_cons_inj (hC.noSlash _) (hC.noSlash _) hnames).1
  · rintro rfl
    exact List.prefix_append _ _

/-- **A key belongs to one blob and one time.** -/
theorem snapshotStorageKey_inj (hC : C.UrlSafe) :
    snapshotStorageKey C k t = snapshotStorageKey C k' t' ↔ k = k' ∧ t = t' := by
  constructor
  · intro h
    obtain rfl : k = k' := (snapshotKeysOf_prefix_iff (t := t') hC).1 (h ▸ List.prefix_append _ _)
    exact ⟨rfl, String.toList_injective (List.append_cancel_left h)⟩
  · rintro ⟨rfl, rfl⟩
    rfl

end Keys

/-! ### Reading a snapshot -/

/-- What `get_blob` reads of a blob, of one of its snapshots, or of one of its versions, in the
directory of its key. -/
def lookupBlob (E : Env) (C : Codec) (c : String) (k : Text) (snapshot version : Option String)
    (A : Adapter) : Except Error Stored :=
  match version with
  | some id => A.vault.storedIn E c k (some id)
  | none => A.vault.storedIn E c ((snapshot.map (snapshotStorageKey C k)).getD k) none

/-! ### Requests for blobs -/

namespace Step

/-- The step is a request for a blob, or a restart. -/
def IsForBlob : Step → Prop
  | .request _ req =>
    (∃ c k, req.container = some c ∧ req.blob = some k) ∧
      req.queryParam "restype" ≠ some "container"
  | .restart => True

/-- The step is a request to delete the snapshot, by its time or with its blob. -/
def DeletesSnapshot (c : String) (k : Text) (t : String) : Step → Prop
  | .request _ req => req.container = some c ∧ req.blob = some k ∧
      blobOperation req = .deleteBlob ∧ req.queryParam "versionid" = none ∧
        (req.queryParam "snapshot" = some t ∨
          req.queryParam "snapshot" = none ∧ (req.header "x-ms-delete-snapshots").isSome)
  | .restart => False

/-- **The step spares the snapshot**: it is not a request to write a blob that is named like the key
of the snapshot, and does not make a snapshot of the same blob at the same time. -/
def SparesSnapshot (C : Codec) (c : String) (k : Text) (t : String) : Step → Prop
  | .request now req => req.container = some c →
      ¬ (req.blob = some (snapshotStorageKey C k t) ∧ (blobOperation req).writes = true) ∧
        ¬ (blobOperation req = .snapshot ∧ req.blob = some k ∧ C.timestamp now = t)
  | .restart => True

end Step

section Runs

variable {E : Env} {C : Codec} {now : Time} {G : Gate} {reads : Reads} {req : Request} {c : String}
  {k : Text} {t : String} {A A' : Adapter}

/-- What an operation on a blob may write under is not the key of a snapshot that is spared. -/
theorem not_touches_of_spares (hC : C.UrlSafe) {k' : Text} (hc : req.container = some c)
    (hk : req.blob = some k') (hspares : (Step.request now req).SparesSnapshot C c k t)
    (hkept : ¬ (Step.request now req).DeletesSnapshot c k t) :
    ¬ Touches C now c k' req c (snapshotStorageKey C k t) := by
  obtain ⟨hname, htime⟩ := hspares hc
  intro h
  generalize hkey : snapshotStorageKey C k t = key at h
  cases h with
  | blob hwrites => exact hname ⟨by rw [hk, hkey], hwrites⟩
  | newSnapshot hoperation =>
    obtain ⟨rfl, rfl⟩ := (snapshotStorageKey_inj hC).1 hkey
    exact htime ⟨hoperation, hk, rfl⟩
  | snapshot hoperation hversion hsnapshot =>
    obtain ⟨rfl, rfl⟩ := (snapshotStorageKey_inj hC).1 hkey
    exact hkept ⟨hc, hk, hoperation, hversion, Or.inl hsnapshot⟩
  | snapshots hoperation hversion hsnapshot hmode hstart =>
    subst hkey
    obtain rfl := (snapshotKeysOf_prefix_iff hC).1 hstart
    exact hkept ⟨hc, hk, hoperation, hversion, Or.inr ⟨hsnapshot, hmode⟩⟩

/-- A snapshot with the container that it is in: the record under its key, and no pending
deletion. -/
def Kept (c : String) (key : Text) (e : KeyRecord) (A : Adapter) : Prop :=
  A.deletions[c]? = none ∧ A.vault.record c key = e

/-- **A request for a blob keeps the snapshots that it spares.** -/
theorem Step.apply_kept (hC : C.UrlSafe) {step : Step} {e : KeyRecord} (hblob : step.IsForBlob)
    (hspares : step.SparesSnapshot C c k t) (hkept : ¬ step.DeletesSnapshot c k t)
    (h : Kept c (snapshotStorageKey C k t) e A) :
    Kept c (snapshotStorageKey C k t) e (step.apply E C G reads A) := by
  cases step with
  | restart => exact h
  | request now req =>
    obtain ⟨⟨c', k', hc, hk⟩, hrestype⟩ := hblob
    have hresolve : Kept c (snapshotStorageKey C k t) e (resolveDeletion E C now c' req A).2 := by
      by_cases hne : c = c'
      · subst hne
        rw [resolveDeletion_of_none h.1]
        exact h
      · have haway : Away c A (resolveDeletion E C now c' req A).2 := resolveDeletion_away hne A
        exact ⟨haway.deletion.trans h.1, (haway.record _).trans h.2⟩
    have hdispatch (A₁ : Adapter) (h : Kept c (snapshotStorageKey C k t) e A₁) :
        Kept c (snapshotStorageKey C k t) e
          (dispatchBlob E C now reads req.account c' k' req A₁).2 := by
      have hframe : Frame (Touches C now c' k' req) A₁
          (dispatchBlob E C now reads req.account c' k' req A₁).2 := dispatchBlob_frame A₁
      refine ⟨(congrArg (·[c]?) hframe.deletions).trans h.1, ?_⟩
      refine (hframe.vault.record _ _ fun htouches ↦ ?_).trans h.2
      obtain rfl := htouches.container
      exact not_touches_of_spares hC hc hk hspares hkept htouches
    exact handleRequest_blob_moves (R := fun A A' ↦ Kept c (snapshotStorageKey C k t) e A →
      Kept c (snapshotStorageKey C k t) e A') hc hk hrestype (fun _ ↦ hresolve)
        (fun A₁ _ ↦ hdispatch A₁) h

/-- **A run of requests for blobs** keeps the snapshots that its steps spare. -/
theorem run_kept (hC : C.UrlSafe) {e : KeyRecord} :
    ∀ (steps : List Step) (A : Adapter), (∀ step ∈ steps, step.IsForBlob) →
      (∀ step ∈ steps, step.SparesSnapshot C c k t) →
      (∀ step ∈ steps, ¬ step.DeletesSnapshot c k t) →
      Kept c (snapshotStorageKey C k t) e A →
      Kept c (snapshotStorageKey C k t) e (A.run E C G reads steps)
  | [], _, _, _, _, h => h
  | first :: steps, A, hblob, hspares, hkept, h => by
    have hstep : Kept c (snapshotStorageKey C k t) e (first.apply E C G reads A) :=
      first.apply_kept hC (hblob first List.mem_cons_self) (hspares first List.mem_cons_self)
        (hkept first List.mem_cons_self) h
    exact run_kept hC steps _ (fun s hs ↦ hblob s (List.mem_cons_of_mem _ hs))
      (fun s hs ↦ hspares s (List.mem_cons_of_mem _ hs))
      (fun s hs ↦ hkept s (List.mem_cons_of_mem _ hs)) hstep

/-- **A snapshot that is made** is there, with the bytes of the blob. -/
theorem createSnapshot_ok {r : Response} (h : createSnapshot E C now c k req A = (.ok r, A')) :
    r = .snapshot (C.timestamp now) ∧ ∃ blob etag id, admitSnapshot c k req A = (.ok blob, A) ∧
      (A'.vault.record c (snapshotStorageKey C k (C.timestamp now))).current =
        some (blob.data, ((snapshotOf C now k req etag blob).withVersionId id).serialized) := by
  obtain ⟨blob, A₁, hadmitted, hdraw⟩ := bind_ok.1 h
  obtain rfl : A₁ = A := by rw [← admitSnapshot_readOnly A, hadmitted]
  obtain ⟨etag, A₂, -, hput⟩ := bind_ok.1 hdraw
  obtain ⟨u, A₃, hvault, hreturn⟩ := bind_ok.1 hput
  obtain ⟨hr, rfl⟩ := pure_ok.1 hreturn
  refine ⟨hr.symm, blob, etag, ?_⟩
  obtain ⟨id, hcurrent⟩ := Vault.current_of_putObject (onVault_ok hvault)
  exact ⟨id, hadmitted, hcurrent⟩

/-- **What is read of a snapshot** after a run is what is kept under its key, if no two keys that the
run has used have the same identity. -/
theorem lookupBlob_snapshot {steps : List Step} {st : Stored}
    (hfree : E.CollisionFree c (keysInUse E C G reads A steps c))
    (h : ((A.run E C G reads steps).vault.record c (snapshotStorageKey C k t)).current = some st) :
    lookupBlob E C c k (some t) none (A.run E C G reads steps) = .ok st := by
  have hne : (A.run E C G reads steps).vault.record c (snapshotStorageKey C k t) ≠ {} := by
    intro hnone
    rw [hnone] at h
    cases h
  rw [lookupBlob, Option.map_some, Option.getD_some, storedIn_run hfree hne, Vault.stored, h]
  rfl

/-- The key of a snapshot that has been made is in use. -/
theorem snapshotKey_mem_keysInUse {steps : List Step} (hc : req.container = some c)
    (hk : req.blob = some k) (hoperation : blobOperation req = .snapshot) :
    snapshotStorageKey C k (C.timestamp now) ∈
      keysInUse E C G reads A (.request now req :: steps) c :=
  ⟨[], _, rfl, Or.inr ⟨now, req, steps, rfl, hc, k, hk, Or.inr (Or.inr ⟨hoperation, rfl⟩)⟩⟩

/-- **Snapshots are read-only.** In every run of requests for blobs that spare a snapshot and do not
delete it, what is read of the snapshot is what was stored when it was made: the bytes of the blob
at that time, with the ETag and the metadata of the snapshot. The object that it is stored in is not
that of another blob or of another time. No two keys that the run uses have the same identity. -/
theorem snapshots_are_read_only (hC : C.UrlSafe) {steps : List Step} (hc : req.container = some c)
    (hk : req.blob = some k) (hrestype : req.queryParam "restype" ≠ some "container")
    (hoperation : blobOperation req = .snapshot)
    (hcreate : handleRequest E C now G reads req A = (.ok (.snapshot t), A'))
    (hblob : ∀ step ∈ steps, step.IsForBlob)
    (hspares : ∀ step ∈ steps, step.SparesSnapshot C c k t)
    (hkept : ∀ step ∈ steps, ¬ step.DeletesSnapshot c k t)
    (hfree : E.CollisionFree c (keysInUse E C G reads A (.request now req :: steps) c)) :
    (∃ A₁ blob etag id, admitSnapshot c k req A₁ = (.ok blob, A₁) ∧
      lookupBlob E C c k (some t) none (A'.run E C G reads steps) =
        .ok (blob.data, ((snapshotOf C now k req etag blob).withVersionId id).serialized)) ∧
      ∀ k' t', snapshotStorageKey C k' t' ∈ keysInUse E C G reads A (.request now req :: steps) c →
        E.computeObjectId c (snapshotStorageKey C k t) =
          E.computeObjectId c (snapshotStorageKey C k' t') → k = k' ∧ t = t' := by
  obtain ⟨A₁, B, hresolve, -, hdispatch⟩ := handleRequest_blob_ok hc hk hrestype hcreate
  have hpending : A'.deletions[c]? = none := by
    have hframe : Frame (Touches C now c k req) A₁
        (dispatchBlob E C now reads req.account c k req A₁).2 := dispatchBlob_frame A₁
    rw [hdispatch] at hframe
    exact (congrArg (·[c]?) hframe.deletions).trans (resolveDeletion_ok hresolve)
  rw [dispatchBlob, hoperation] at hdispatch
  obtain ⟨ht, blob, etag, id, hadmitted, hstored⟩ := createSnapshot_ok hdispatch
  cases ht
  have hrun : Kept c (snapshotStorageKey C k (C.timestamp now))
      (A'.vault.record c (snapshotStorageKey C k (C.timestamp now))) (A'.run E C G reads steps) :=
    run_kept hC steps A' hblob hspares hkept ⟨hpending, rfl⟩
  have hA' : A.run E C G reads (.request now req :: steps) = A'.run E C G reads steps :=
    congrArg (fun result ↦ Adapter.run E C G reads result.2 steps) hcreate
  refine ⟨⟨A₁, blob, etag, id, hadmitted, ?_⟩, fun k' t' hmem h ↦ ?_⟩
  · rw [← hA']
    exact lookupBlob_snapshot hfree (hA' ▸ (congrArg KeyRecord.current hrun.2).trans hstored)
  · exact (snapshotStorageKey_inj hC).1
      (hfree (snapshotKey_mem_keysInUse hc hk hoperation) hmem h)

end Runs

/-! ### A snapshot that is written -/

theorem length_le_encode_utf8 (text : Text) :
    text.length ≤ (Base64.encode (Percent.utf8 text)).length :=
  (Percent.length_le_utf8 text).trans (Base64.length_le_encode _)

/-- The simple external functions, with the base64 encoder. -/
def Codec.encoding : Codec :=
  { Codec.simple with
    urlSafe := fun text ↦ Base64.encode (Percent.utf8 text)
    length_le_urlSafe := length_le_encode_utf8 }

theorem Codec.encoding_urlSafe : Codec.encoding.UrlSafe where
  injective := Base64.encode_injective.comp Percent.utf8_injective
  noSlash _ := Base64.slash_notMem_encode _

/-- A request to put a block blob. -/
def putRequest (name : Text) (body : Bytes) : Request :=
  { blobRequest .put [] [("x-ms-blob-type", "BlockBlob")] body with blob := some name }

/-- A request to make a snapshot of the blob `b`. -/
def snapshotRequest : Request := blobRequest .put [("comp", "snapshot")] [] []

/-- The adapter after a run from the start. -/
def after (steps : List Step) : Adapter :=
  Adapter.run .simple .encoding .opened noReads {} steps

/-- A container with the blob `b`. -/
def withBlob : List Step :=
  [.request 0 (containerRequest .put []), .request 0 (putRequest ['b'] [1])]

/-- **A blob is replaced, and its snapshot is not.** -/
theorem snapshot_outlives_overwrite :
    (∃ A₁ blob etag id, admitSnapshot "box" ['b'] snapshotRequest A₁ = (.ok blob, A₁) ∧
      lookupBlob .simple .encoding "box" ['b'] (some "1970-01-01T00:00:00.000000Z") none
        ((handleRequest .simple .encoding 0 .opened noReads snapshotRequest (after withBlob)).2.run
          .simple .encoding .opened noReads [.request 0 (putRequest ['b'] [2])]) =
        .ok (blob.data, ((snapshotOf .encoding 0 ['b'] snapshotRequest etag blob).withVersionId
          id).serialized)) ∧
      ∀ k' t', snapshotStorageKey .encoding k' t' ∈ keysInUse .simple .encoding .opened noReads
          (after withBlob) [.request 0 snapshotRequest, .request 0 (putRequest ['b'] [2])] "box" →
        Env.simple.computeObjectId "box"
            (snapshotStorageKey .encoding ['b'] "1970-01-01T00:00:00.000000Z") =
          Env.simple.computeObjectId "box" (snapshotStorageKey .encoding k' t') →
        ['b'] = k' ∧ "1970-01-01T00:00:00.000000Z" = t' := by
  refine snapshots_are_read_only Codec.encoding_urlSafe rfl rfl (by decide)
    (by decide) (Prod.ext (by decide) rfl) ?_ ?_ ?_ Env.simple_collisionFree
  all_goals
    intro step hstep
    cases List.mem_singleton.1 hstep
  · exact ⟨⟨_, _, rfl, rfl⟩, by decide⟩
  · exact fun _ ↦ ⟨by decide, by decide⟩
  · rintro ⟨-, -, hdelete, -⟩
    revert hdelete
    decide

/-- **A snapshot is overwritten** by a request to put a blob under a name that is the key of the
snapshot. -/
theorem snapshot_is_overwritten :
    (lookupBlob .simple .encoding "box" ['b'] (some "1970-01-01T00:00:00.000000Z") none
      (after (withBlob ++ [.request 0 snapshotRequest]))).toOption.map Prod.fst = some [1] ∧
    (lookupBlob .simple .encoding "box" ['b'] (some "1970-01-01T00:00:00.000000Z") none
      (after (withBlob ++ [.request 0 snapshotRequest, .request 0 (putRequest
        "__sqrzl_azure_snapshot__/Yg/1970-01-01T00:00:00.000000Z".toList [2])]))).toOption.map
      Prod.fst = some [2] :=
  ⟨by decide, by decide⟩

end Sqrzl.Azure
