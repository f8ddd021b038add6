import SqrzlEmulator.Azure.Effects
import SqrzlEmulator.Storage.Regular

/-!
# The modes of a new container

What protects the objects of a bucket is kept in the metadata of the bucket, under six keys that the
front doors read. `create_container` puts the `x-ms-meta-*` headers of a request into the same
table, under the names that the client has chosen, and then writes the modes that the two selector
headers ask for.

A mode of the new container is therefore raised by its selector, **or by a header that has the name
of the mode** (`raised_containerMetadata`). Two requests that differ in nothing but `x-ms-meta-*`
headers create containers with the same modes exactly when these headers forge the same modes
(`new_container_modes_agree_iff`). The properties of a container do not show entries whose names
start like those of the modes; nothing keeps a client from writing them (`metadata_forges_modes`).
-/

namespace Sqrzl.Azure

open Prog Atomic

/-! ### Modes -/

/-- The modes that are kept in the metadata of a bucket. -/
inductive ModeFlag where
  | azureVersioning
  | azureSoftDelete
  | s3Versioning
  | s3ObjectLock
  | gcsSoftDelete
  | gcsRetention
  deriving DecidableEq

namespace ModeFlag

/-- The key of a mode. -/
def key : ModeFlag → String
  | azureVersioning => "azure_versioning_enabled"
  | azureSoftDelete => "azure_soft_delete_days"
  | s3Versioning => "s3_versioning_status"
  | s3ObjectLock => "s3_object_lock_enabled"
  | gcsSoftDelete => "gcs_soft_delete_seconds"
  | gcsRetention => "gcs_retention_seconds"

/-- The values that `azure_history_mode` and `foreign_history_mode` take for a mode that is on. -/
def reads : ModeFlag → String → Bool
  | azureVersioning, value => value = "true"
  | azureSoftDelete, value => positiveNumber (some value)
  | s3Versioning, value => value = "Enabled" || value = "Suspended"
  | s3ObjectLock, value => value = "true"
  | gcsSoftDelete, value => positiveNumber (some value)
  | gcsRetention, value => positiveNumber (some value)

/-- The mode is on in the metadata of a bucket. -/
def raised (flag : ModeFlag) (metadata : Table String String) : Bool :=
  metadata[flag.key]?.any flag.reads

/-- A selector header of the request asks for the mode. -/
def selected (req : Request) : ModeFlag → Bool
  | azureVersioning => req.header "x-sqrzl-azure-versioning-enabled" = some "true"
  | azureSoftDelete => (req.header "x-sqrzl-azure-soft-delete-days").isSome
  | _ => false

/-- An `x-ms-meta-*` header of the request has the name of the mode, and a value that turns it
on. -/
def forged (req : Request) (flag : ModeFlag) : Bool :=
  (req.header ("x-ms-meta-" ++ flag.key)).any flag.reads

theorem key_injective {flag flag' : ModeFlag} (h : flag.key = flag'.key) : flag = flag' := by
  revert h
  cases flag <;> cases flag' <;> decide

theorem raised_set (flag flag' : ModeFlag) (value : String) {metadata : Table String String} :
    flag.raised (metadata.set flag'.key (some value)) =
      if flag = flag' then flag'.reads value else flag.raised metadata := by
  rw [raised, Table.getElem?_set]
  by_cases h : flag = flag'
  · subst h
    rw [if_pos rfl, if_pos rfl]
    rfl
  · rw [if_neg fun hkey ↦ h (key_injective hkey), if_neg h]
    rfl

end ModeFlag

theorem any_eq_some {value : String} (o : Option String) :
    (o.any fun v ↦ v = value) = decide (o = some value) := by
  cases o <;> simp

theorem any_positiveNumber (o : Option String) :
    (o.any fun v ↦ positiveNumber (some v)) = positiveNumber o := by
  cases o <;> rfl

/-- `azure_history_mode` reads two of the modes. -/
theorem azureHistoryMode_eq (B : Bucket) : azureHistoryMode B =
    (ModeFlag.azureVersioning.raised B.metadata || ModeFlag.azureSoftDelete.raised B.metadata) := by
  rw [azureHistoryMode, ← any_eq_some, ← any_positiveNumber]
  rfl

/-- `foreign_history_mode` reads the other four. -/
theorem foreignHistoryMode_eq (B : Bucket) : foreignHistoryMode B =
    (ModeFlag.s3Versioning.raised B.metadata || ModeFlag.s3ObjectLock.raised B.metadata ||
      ModeFlag.gcsSoftDelete.raised B.metadata || ModeFlag.gcsRetention.raised B.metadata) := by
  rw [foreignHistoryMode, ← any_eq_some, ← any_positiveNumber, ← any_positiveNumber]
  rfl

/-- Buckets whose modes are the same are told apart by neither of the two. -/
theorem historyModes_congr {B B' : Bucket}
    (h : ∀ flag : ModeFlag, flag.raised B.metadata = flag.raised B'.metadata) :
    azureHistoryMode B = azureHistoryMode B' ∧ foreignHistoryMode B = foreignHistoryMode B' := by
  simp only [azureHistoryMode_eq, foreignHistoryMode_eq, h, and_self]

/-! ### Metadata of requests -/

theorem startsWith_iff {start s : String} :
    startsWith start s = true ↔ ∃ rest, s = start ++ String.ofList rest := by
  rw [startsWith, List.isPrefixOf_iff_prefix]
  constructor
  · rintro ⟨rest, h⟩
    exact ⟨rest, String.ext (by rw [String.toList_append, String.toList_ofList, h])⟩
  · rintro ⟨rest, rfl⟩
    exact ⟨rest, by rw [String.toList_append, String.toList_ofList]⟩

/-- Headers are gathered under what follows the start of their names. -/
theorem getElem?_foldl_headers {key : String} {value : Option String} :
    ∀ (headers : List (String × String)) (metadata : Table String String),
      (∀ v, ("x-ms-meta-" ++ key, v) ∈ headers → value = some v) →
      (metadata[key]? = value ∨ ∃ v, ("x-ms-meta-" ++ key, v) ∈ headers) →
      (headers.foldl (fun metadata (name, value) ↦
        if startsWith "x-ms-meta-" name then
          metadata.set (String.ofList (name.toList.drop "x-ms-meta-".length)) (some value)
        else
          metadata) metadata)[key]? = value
  | [], _, _, hstart => hstart.resolve_right fun ⟨_, h⟩ ↦ absurd h List.not_mem_nil
  | (name, v) :: headers, metadata, hvalue, hstart => by
    refine getElem?_foldl_headers headers _ (fun w hw ↦ hvalue w (List.mem_cons_of_mem _ hw)) ?_
    by_cases hname : name = "x-ms-meta-" ++ key
    · subst hname
      have hstart : startsWith "x-ms-meta-" ("x-ms-meta-" ++ key) = true :=
        startsWith_iff.2 ⟨key.toList, by rw [String.ofList_toList]⟩
      have hdrop : String.ofList (("x-ms-meta-" ++ key).toList.drop "x-ms-meta-".length) = key := by
        rw [String.toList_append, ← String.length_toList, List.drop_left, String.ofList_toList]
      refine Or.inl ?_
      dsimp only
      rw [if_pos hstart, hdrop, Table.getElem?_set, if_pos rfl]
      exact (hvalue v List.mem_cons_self).symm
    · refine hstart.imp (fun h ↦ ?_) fun ⟨w, hw⟩ ↦ ?_
      · dsimp only
        split
        · next hstart =>
          obtain ⟨rest, rfl⟩ := startsWith_iff.1 hstart
          rw [Table.getElem?_set, if_neg, h]
          rintro rfl
          rw [String.toList_append, ← String.length_toList, List.drop_left,
            String.toList_ofList] at hname
          exact hname rfl
        · exact h
      · exact ⟨w, (List.mem_cons.1 hw).resolve_left fun heq ↦ hname (Prod.mk.inj heq).1.symm⟩

/-- **The metadata of a request** are what its `x-ms-meta-*` headers say. -/
theorem getElem?_metadataFromHeaders (req : Request) (key : String) :
    (metadataFromHeaders req)[key]? = req.header ("x-ms-meta-" ++ key) := by
  rw [metadataFromHeaders]
  refine getElem?_foldl_headers _ _ (fun v hv ↦ ?_) ?_
  · exact Std.ExtTreeMap.mem_toList_iff_getElem?_eq_some.1 hv
  · cases hheader : req.header ("x-ms-meta-" ++ key) with
    | none => exact Or.inl Std.ExtTreeMap.getElem?_empty
    | some v => exact Or.inr ⟨v, Std.ExtTreeMap.mem_toList_iff_getElem?_eq_some.2 hheader⟩

/-! ### Metadata of containers -/

section Modes

variable {req : Request} {versioning : Bool} {days : Option ℕ}

/-- What the selectors ask for. -/
theorem requestedRetentionModes_ok (h : requestedRetentionModes req = .ok (versioning, days)) :
    ModeFlag.azureVersioning.selected req = versioning ∧
      ModeFlag.azureSoftDelete.selected req = days.isSome ∧
        ∀ d, days = some d → 1 ≤ d ∧ d ≤ 365 := by
  unfold requestedRetentionModes at h
  extract_lets withVersioning at h
  have hdays (v : Bool) (h : withVersioning v = .ok (versioning, days)) :
      v = versioning ∧ ModeFlag.azureSoftDelete.selected req = days.isSome ∧
        ∀ d, days = some d → 1 ≤ d ∧ d ≤ 365 := by
    simp only [withVersioning] at h
    rw [ModeFlag.selected]
    split at h
    · next hnone =>
      cases h
      exact ⟨rfl, by rw [hnone]; rfl, nofun⟩
    · next value hvalue =>
      split at h
      · next d hd =>
        cases h
        refine ⟨rfl, by rw [hvalue]; rfl, fun d' hd' ↦ ?_⟩
        cases hd'
        obtain ⟨-, hrange⟩ := Option.filter_eq_some_iff.1 hd
        rwa [Bool.and_eq_true, decide_eq_true_iff, decide_eq_true_iff] at hrange
      · cases h
  rw [ModeFlag.selected]
  split at h
  · next hnone =>
    obtain ⟨rfl, hrest⟩ := hdays false h
    exact ⟨by rw [hnone]; rfl, hrest⟩
  · next value hvalue =>
    rw [hvalue]
    split at h
    · next hfalse =>
      obtain ⟨rfl, hrest⟩ := hdays false h
      exact ⟨by rw [hfalse]; rfl, hrest⟩
    · split at h
      · next htrue =>
        obtain ⟨rfl, hrest⟩ := hdays true h
        exact ⟨by rw [htrue]; rfl, hrest⟩
      · cases h

/-- **A mode of a new container** is raised by its selector, or by a header with its name. -/
theorem raised_containerMetadata (h : requestedRetentionModes req = .ok (versioning, days))
    (flag : ModeFlag) : flag.raised (containerMetadata req versioning days) =
      (flag.selected req || flag.forged req) := by
  obtain ⟨hversioning, hdays, hrange⟩ := requestedRetentionModes_ok h
  have hmetadata : flag.raised (metadataFromHeaders req) = flag.forged req := by
    rw [ModeFlag.raised, getElem?_metadataFromHeaders]
    rfl
  have hfirst : flag.raised (if versioning then
        (metadataFromHeaders req).set "azure_versioning_enabled" (some "true")
      else metadataFromHeaders req) =
      (flag = .azureVersioning && versioning || flag.forged req) := by
    cases versioning with
    | false => simp [hmetadata]
    | true =>
      rw [if_pos rfl]
      refine (ModeFlag.raised_set flag .azureVersioning "true").trans ?_
      split
      · next hflag => simp [hflag, ModeFlag.reads]
      · next hflag => simp [hflag, hmetadata]
  cases days with
  | none =>
    rw [containerMetadata]
    refine hfirst.trans (congrArg (· || flag.forged req) ?_)
    cases flag <;> first | rfl | simp_all
  | some d =>
    obtain ⟨hpos, hle⟩ := hrange d rfl
    refine (ModeFlag.raised_set flag .azureSoftDelete (toString d)).trans ?_
    split
    · next hflag =>
      subst hflag
      have hparse : parseU64 (toString d) = some d := parseU64_toString (by omega)
      rw [hdays, ModeFlag.reads, positiveNumber, Option.bind_some, hparse]
      exact decide_eq_true hpos
    · next hflag =>
      refine hfirst.trans (congrArg (· || flag.forged req) ?_)
      cases flag <;> first | rfl | contradiction | simp_all

end Modes

/-! ### New containers -/

section Creation

variable {E E' : Env} {C C' : Codec} {now now' : Time} {G G' : Gate} {reads reads' : Reads}
  {req req' : Request} {c : String} {A A' A₁ : Adapter} {r r' : Response}

/-- A store that has been given a container with these metadata. -/
theorem createContainerIn_metadata (now : Time) (req : Request) (versioning : Bool)
    (days : Option ℕ) {V : Vault} (hnone : V.buckets.contains c = false) :
    ∃ B, (createContainerIn now c req versioning days V).2.buckets[c]? = some B ∧
      B.metadata = containerMetadata req versioning days := by
  have hupdate (V : Vault) (B : Bucket) (hB : V.buckets[c]? = some B) : ∃ B',
      (Vault.updateBucketMetadata now c (containerMetadata req versioning days) V).2.buckets[c]? =
        some B' ∧ B'.metadata = containerMetadata req versioning days := by
    rw [Vault.updateBucketMetadata, Vault.getBucket_bind_of_some hB]
    exact ⟨_, (Table.getElem?_set ..).trans (if_pos rfl), rfl⟩
  obtain ⟨V₁, hcreate, B, hB⟩ : ∃ V₁, Vault.createBucket now c V = (.ok (), V₁) ∧
      ∃ B, V₁.buckets[c]? = some B := by
    rw [Vault.createBucket, view_bind,
      refuseIf_bind_of_not (by rw [hnone]; exact Bool.false_ne_true)]
    exact ⟨_, rfl, _, by rw [Table.getElem?_set, if_pos rfl]⟩
  rw [createContainerIn, bind_of_ok hcreate]
  split
  · rw [bind_of_ok (Vault.setVersioning_eq hB)]
    exact hupdate _ _ (by rw [Table.getElem?_set, if_pos rfl])
  · exact hupdate _ _ hB

/-- **A new container** has the modes that the selectors and the forging headers raise. -/
theorem createContainer_raised (h : createContainer now c req A = (.ok r, A₁)) :
    ∃ B, A₁.vault.buckets[c]? = some B ∧
      ∀ flag : ModeFlag, flag.raised B.metadata = (flag.selected req || flag.forged req) := by
  obtain ⟨⟨versioning, days⟩, A₀, hadmitted, hcreate⟩ := bind_ok.1 h
  obtain rfl : A₀ = A := by rw [← admitContainer_readOnly A, hadmitted]
  obtain ⟨-, hmodes⟩ := refuseIf_bind_ok.1 hadmitted
  obtain ⟨modes, hmodes, htaken⟩ := ofExcept_bind_ok.1 hmodes
  rw [view_bind] at htaken
  obtain ⟨hfree, hpure⟩ := refuseIf_bind_ok.1 htaken
  obtain ⟨rfl, -⟩ := pure_ok.1 hpure
  obtain ⟨u, A₂, hvault, hreturn⟩ := bind_ok.1 hcreate
  obtain ⟨-, rfl⟩ := pure_ok.1 hreturn
  obtain ⟨B, hB, hmetadata⟩ := createContainerIn_metadata now req versioning days
    (Bool.eq_false_of_not_eq_true hfree)
  refine ⟨B, ?_, fun flag ↦ ?_⟩
  · rw [← hB, ← congrArg (fun outcome ↦ outcome.2.vault.buckets[c]?) hvault]
    rfl
  · rw [hmetadata]
    exact raised_containerMetadata hmodes flag

/-- A Create Container request that succeeds has carried out the creation. -/
theorem handleRequest_create_ok (hc : req.container = some c) (hmethod : req.method = .put)
    (hrestype : req.queryParam "restype" = some "container")
    (h : handleRequest E C now G reads req A = (.ok r, A₁)) :
    ∃ A₀, createContainer now c req A₀ = (.ok r, A₁) := by
  obtain ⟨_, _, -, hrest⟩ := bind_ok.1 h
  rw [hc] at hrest
  obtain ⟨_, A₀, -, hresource⟩ := bind_ok.1 hrest
  rw [handleResource, if_pos hrestype] at hresource
  obtain ⟨_, A₂, -, hcreate⟩ := bind_ok.1 hresource
  rw [hmethod] at hcreate
  exact ⟨A₂, hcreate⟩

/-- The requests differ at most in their `x-ms-meta-*` headers. -/
structure DifferInMetadata (req req' : Request) : Prop where
  method : req.method = req'.method
  account : req.account = req'.account
  container : req.container = req'.container
  blob : req.blob = req'.blob
  query : req.query = req'.query
  body : req.body = req'.body
  header : ∀ name, startsWith "x-ms-meta-" name = false → req.header name = req'.header name

/-- Such requests ask for the same modes with their selectors. -/
theorem DifferInMetadata.selected (h : DifferInMetadata req req') (flag : ModeFlag) :
    flag.selected req = flag.selected req' := by
  have hversioning := h.header "x-sqrzl-azure-versioning-enabled" (by decide)
  have hdays := h.header "x-sqrzl-azure-soft-delete-days" (by decide)
  cases flag with
  | azureVersioning => rw [ModeFlag.selected, ModeFlag.selected, hversioning]
  | azureSoftDelete => rw [ModeFlag.selected, ModeFlag.selected, hdays]
  | s3Versioning => rfl
  | s3ObjectLock => rfl
  | gcsSoftDelete => rfl
  | gcsRetention => rfl

/-- **Two requests that differ only in `x-ms-meta-*` headers create containers with the same modes**
exactly when the headers forge the same modes, those apart that the selectors ask for. -/
theorem new_container_modes_agree_iff (hc : req.container = some c) (hmethod : req.method = .put)
    (hrestype : req.queryParam "restype" = some "container") (hdiffer : DifferInMetadata req req')
    (hcreated : (handleRequest E C now G reads req A).1 = .ok r)
    (hcreated' : (handleRequest E' C' now' G' reads' req' A').1 = .ok r') :
    ∃ B B', (handleRequest E C now G reads req A).2.vault.buckets[c]? = some B ∧
      (handleRequest E' C' now' G' reads' req' A').2.vault.buckets[c]? = some B' ∧
      ((∀ flag : ModeFlag, flag.raised B.metadata = flag.raised B'.metadata) ↔
        ∀ flag : ModeFlag, flag.selected req = false → flag.forged req = flag.forged req') ∧
      ((∀ flag : ModeFlag, flag.selected req = false → flag.forged req = flag.forged req') →
        azureHistoryMode B = azureHistoryMode B' ∧
          foreignHistoryMode B = foreignHistoryMode B') := by
  obtain ⟨A₀, h⟩ := handleRequest_create_ok hc hmethod hrestype (Prod.ext hcreated rfl)
  obtain ⟨A₀', h'⟩ := handleRequest_create_ok (hdiffer.container ▸ hc) (hdiffer.method ▸ hmethod)
    (by rw [Request.queryParam, ← hdiffer.query]; exact hrestype) (Prod.ext hcreated' rfl)
  obtain ⟨B, hB, hraised⟩ := createContainer_raised h
  obtain ⟨B', hB', hraised'⟩ := createContainer_raised h'
  have hagree : (∀ flag : ModeFlag, flag.raised B.metadata = flag.raised B'.metadata) ↔
      ∀ flag : ModeFlag, flag.selected req = false → flag.forged req = flag.forged req' := by
    refine forall_congr' fun flag ↦ ?_
    rw [hraised, hraised', ← hdiffer.selected]
    cases flag.selected req <;> simp
  exact ⟨B, B', hB, hB', hagree, fun hforged ↦ historyModes_congr (hagree.2 hforged)⟩

/-! ### A container with forged modes -/

/-- A container of a client that says who owns it. -/
def ownedContainer : Request := containerRequest .put [("x-ms-meta-owner", "alice")]

/-- A container of a client that uses the key of another front door's mode. -/
def lockedContainer : Request :=
  containerRequest .put [("x-ms-meta-s3_object_lock_enabled", "true")]

/-- A request to an adapter that is empty. -/
def creation (req : Request) : Except Refusal Response × Adapter :=
  handleRequest .simple .simple 0 .opened noReads req {}

/-- Requests about containers differ in their headers only. -/
theorem containerRequest_differInMetadata {method : Method}
    {headers headers' : List (String × String)}
    (h : ∀ name, startsWith "x-ms-meta-" name = false →
      (entries headers)[name]? = (entries headers')[name]?) :
    DifferInMetadata (containerRequest method headers) (containerRequest method headers') :=
  ⟨rfl, rfl, rfl, rfl, rfl, rfl, h⟩

/-- A header with metadata is no other header. -/
theorem getElem?_entries_metadata {name key value : String}
    (hname : startsWith "x-ms-meta-" name = false) (hkey : startsWith "x-ms-meta-" key = true) :
    (entries [(key, value)])[name]? = (entries [])[name]? := by
  show (Table.set ∅ key (some value))[name]? = _
  rw [Table.getElem?_set, if_neg]
  · rfl
  · rintro rfl
    rw [hkey] at hname
    cases hname

/-- A name for the owner does not change the modes. -/
theorem owned_container_modes_agree :
    ∃ B B', (creation ownedContainer).2.vault.buckets["box"]? = some B ∧
      (creation (containerRequest .put [])).2.vault.buckets["box"]? = some B' ∧
      ((∀ flag : ModeFlag, flag.raised B.metadata = flag.raised B'.metadata) ↔
        ∀ flag : ModeFlag, flag.selected ownedContainer = false →
          flag.forged ownedContainer = flag.forged (containerRequest .put [])) ∧
      ((∀ flag : ModeFlag, flag.selected ownedContainer = false →
          flag.forged ownedContainer = flag.forged (containerRequest .put [])) →
        azureHistoryMode B = azureHistoryMode B' ∧
          foreignHistoryMode B = foreignHistoryMode B') := by
  have howned : (creation ownedContainer).1 = .ok .empty := by decide
  have hplain : (creation (containerRequest .put [])).1 = .ok .empty := by decide
  exact new_container_modes_agree_iff rfl rfl (by decide)
    (containerRequest_differInMetadata fun _ h ↦ getElem?_entries_metadata h (by decide))
    howned hplain

/-- **Metadata forge modes.** Two requests to create a container differ in one `x-ms-meta-*` header,
and both succeed; the container of the one is in the history mode of another front door. -/
theorem metadata_forges_modes :
    DifferInMetadata lockedContainer (containerRequest .put []) ∧
      (creation lockedContainer).1 = .ok .empty ∧
      (creation (containerRequest .put [])).1 = .ok .empty ∧
      (creation lockedContainer).2.vault.buckets["box"]?.map foreignHistoryMode = some true ∧
      (creation (containerRequest .put [])).2.vault.buckets["box"]?.map foreignHistoryMode =
        some false :=
  ⟨containerRequest_differInMetadata fun _ h ↦ getElem?_entries_metadata h (by decide),
    by decide, by decide, by decide, by decide⟩

end Creation

end Sqrzl.Azure
