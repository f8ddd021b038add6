import SqrzlEmulator.Oci.Signature
import SqrzlEmulator.Auth.Hosts

/-!
# An executed OCI request is signed

With authentication enforced, every request that comes to an operation carries a signature of the
configured key over its own target, host and date. **The text that is signed determines the list of
the signed names** and everything that the lines say, so a client's own list cannot give one text
two meanings.

A line holds the first value of a header. **Another value of it is not signed**, and
`metadata_from_headers` keeps the last one (`repeated_metadata_is_not_signed`).

## The argument

* `signingLine_eq_ok` says what a line is. No name holds a colon and no line holds a line break, so
  the lines, their names and their values can be read off the text (`signingString_inj`).
* An operation is only reached by one of five methods (`operation_method`), which differ also in
  lower case.
* A `PUT` that may leave its content unsigned is a `PutObject` or an `UploadPart`.
-/

namespace Sqrzl.Oci

open Percent S3

variable {K : Crates} {config : AuthConfig} {req req' : Request} {parts names names' : List Text}
  {name line text : Text} {now now' : Time} {op : Operation}

/-! ### The text that is signed -/

theorem signingLine_eq_ok (h : signingLine req name = .ok line) :
    (name = requestTarget ∧
      line = name ++ ": ".toList ++ (Auth.toLower req.method ++ ' ' :: req.target)) ∨
    (name ≠ requestTarget ∧ ∃ value, req.header name = some value ∧
      line = name ++ ": ".toList ++ Auth.normalizeHeaderValue value) := by
  unfold signingLine at h
  split at h
  · next hname =>
    refine .inl ⟨hname, ?_⟩
    rw [hname]
    simpa using h.symm
  · next hname =>
    split at h
    · exact absurd h (by simp)
    · split at h
      · exact absurd h (by simp)
      · next value hvalue => exact .inr ⟨hname, value, hvalue, by simpa using h.symm⟩

theorem header_mem {value : Text} (h : req.header name = some value) :
    (name, some value) ∈ req.headers := by
  unfold Auth.HttpRequest.header at h
  obtain ⟨⟨n, v⟩, hfind, hv⟩ := Option.bind_eq_some_iff.1 h
  have hn : n = name := by simpa using List.find?_some hfind
  have hv : v = some value := hv
  exact hn ▸ hv ▸ List.mem_of_find?_eq_some hfind

/-- No name of a line holds a colon. -/
theorem colon_not_mem (h : signingLine req name = .ok line) : ':' ∉ name := by
  rcases signingLine_eq_ok h with ⟨rfl, -⟩ | ⟨-, value, hvalue, -⟩
  · decide
  · exact (req.headers_tokens _ (header_mem hvalue)).1

theorem newline_not_mem_target (req : Request) : '\n' ∉ req.target := by
  unfold Request.target
  cases hquery : req.query with
  | none => simpa using req.path_plain.1
  | some q => simpa using ⟨req.path_plain.1, req.query_plain q hquery⟩

/-- Whitespace does not come from lowering a text. -/
theorem not_mem_toLower {t : Text} {w : Char} (hw : w.isWhitespace = true) (h : w ∉ t) :
    w ∉ Auth.toLower t := by
  intro hmem
  obtain ⟨c, hc, hlower⟩ := List.mem_map.1 hmem
  rcases Auth.toLower_cases c with hsame | ⟨-, hno⟩
  · rw [← hlower, hsame] at h
    exact h hc
  · rw [hlower, hw] at hno
    exact absurd hno (by simp)

/-- No line holds a line break. -/
theorem newline_not_mem_line (h : signingLine req name = .ok line) : '\n' ∉ line := by
  have hsep : '\n' ∉ ": ".toList := by decide
  rcases signingLine_eq_ok h with ⟨rfl, rfl⟩ | ⟨-, value, hvalue, rfl⟩
  · have hname : '\n' ∉ requestTarget := by decide
    have hmethod := not_mem_toLower (by decide) req.method_token
    have htarget := newline_not_mem_target req
    simp only [List.mem_append, List.mem_cons, not_or]
    exact ⟨⟨hname, hsep⟩, hmethod, by decide, htarget⟩
  · simp only [List.mem_append, not_or]
    exact ⟨⟨(req.headers_tokens _ (header_mem hvalue)).2, hsep⟩,
      Auth.newline_not_mem_normalizeHeaderValue value⟩

/-- **A line determines its name** and what stands behind it. -/
theorem signingLine_inj {name' rest rest' : Text} (hn : ':' ∉ name) (hn' : ':' ∉ name')
    (h : name ++ ": ".toList ++ rest = name' ++ ": ".toList ++ rest') :
    name = name' ∧ rest = rest' := by
  have hsep : ": ".toList = [':', ' '] := by decide
  rw [hsep, List.append_assoc, List.append_assoc] at h
  obtain ⟨hname, hrest⟩ := append_cons_inj hn hn' h
  exact ⟨hname, by simpa using hrest⟩

theorem forall₂_of_mapM {α β : Type} {g : α → Except Refusal β} {l : List α} {l' : List β}
    (h : l.mapM g = .ok l') : List.Forall₂ (fun a b ↦ g a = .ok b) l l' := by
  induction l generalizing l' with
  | nil =>
    cases h
    exact .nil
  | cons a l ih =>
    rw [List.mapM_cons] at h
    cases hg : g a with
    | error e => simp [hg, bind, Except.bind] at h
    | ok b =>
      cases hl : l.mapM g with
      | error e => simp [hg, hl, bind, Except.bind] at h
      | ok bs =>
        simp only [hg, hl, bind, Except.bind, pure, Except.pure, Except.ok.injEq] at h
        subst h
        exact .cons hg (ih hl)

theorem signingString_eq_ok (h : signingString req names = .ok text) :
    ∃ lines, List.Forall₂ (fun name line ↦ signingLine req name = .ok line) names lines ∧
      text = join '\n' lines := by
  unfold signingString at h
  cases hlines : names.mapM (signingLine req) with
  | error e => simp [hlines, bind, Except.bind] at h
  | ok lines =>
    simp only [hlines, bind, Except.bind, pure, Except.pure, Except.ok.injEq] at h
    exact ⟨lines, forall₂_of_mapM hlines, h.symm⟩

/-- The line of a signed name. -/
theorem exists_line {lines : List Text}
    (h : List.Forall₂ (fun name line ↦ signingLine req name = .ok line) names lines)
    (hname : name ∈ names) : ∃ line ∈ lines, signingLine req name = .ok line := by
  induction h with
  | nil => exact absurd hname (by simp)
  | cons hline _ ih =>
    rcases List.mem_cons.1 hname with rfl | hname
    · exact ⟨_, by simp, hline⟩
    · obtain ⟨line, hmem, hline⟩ := ih hname
      exact ⟨line, by simp [hmem], hline⟩

theorem newline_not_mem_lines {lines : List Text}
    (h : List.Forall₂ (fun name line ↦ signingLine req name = .ok line) names lines) :
    ∀ line ∈ lines, '\n' ∉ line := by
  induction h with
  | nil => simp
  | cons hline _ ih => exact List.forall_mem_cons.2 ⟨newline_not_mem_line hline, ih⟩

/-- **The signed text determines the names and their lines.** -/
theorem signingString_inj (hne : names ≠ []) (hne' : names' ≠ [])
    (h : signingString req names = .ok text) (h' : signingString req' names' = .ok text) :
    names = names' ∧
      ∀ name ∈ names, ∃ line, signingLine req name = .ok line ∧ signingLine req' name = .ok line := by
  obtain ⟨lines, hlines, rfl⟩ := signingString_eq_ok h
  obtain ⟨lines', hlines', heq⟩ := signingString_eq_ok h'
  have hl : lines ≠ [] := fun hl ↦ hne (by simpa [hl] using hlines)
  have hl' : lines' ≠ [] := fun hl ↦ hne' (by simpa [hl] using hlines')
  obtain rfl := join_injective (newline_not_mem_lines hlines) (newline_not_mem_lines hlines') hl hl'
    heq
  clear h h' hne hne' hl hl' heq
  induction hlines generalizing names' with
  | nil =>
    cases hlines'
    exact ⟨rfl, by simp⟩
  | @cons name line names lines hline _ ih =>
    obtain ⟨name', names', hline', hrest', rfl⟩ := List.forall₂_cons_right_iff.1 hlines'
    obtain rfl : name = name' := by
      have hcolon := colon_not_mem hline
      have hcolon' := colon_not_mem hline'
      rcases signingLine_eq_ok hline with ⟨-, hl⟩ | ⟨-, v, -, hl⟩ <;>
        rcases signingLine_eq_ok hline' with ⟨-, hl'⟩ | ⟨-, v', -, hl'⟩ <;>
        exact (signingLine_inj hcolon hcolon' (hl.symm.trans hl')).1
    obtain ⟨rfl, hall⟩ := ih hrest'
    exact ⟨rfl, List.forall_mem_cons.2 ⟨⟨line, hline, hline'⟩, hall⟩⟩

theorem target_inj (h : req.target = req'.target) : req.path = req'.path ∧ req.query = req'.query := by
  unfold Request.target at h
  have hpath := req.path_plain.2
  have hpath' := req'.path_plain.2
  cases hq : req.query <;> cases hq' : req'.query <;>
    simp only [hq, hq', Option.map_none, Option.map_some, Option.getD_none, Option.getD_some,
      List.append_nil] at h
  · exact ⟨h, rfl⟩
  · exact absurd (h ▸ by simp) hpath
  · exact absurd (h ▸ by simp) hpath'
  · obtain ⟨hp, rfl⟩ := append_cons_inj hpath hpath' h
    exact ⟨hp, rfl⟩

/-- The line of the target determines the target, and the method up to its case. -/
theorem targetLine_inj (h : signingLine req requestTarget = .ok line)
    (h' : signingLine req' requestTarget = .ok line) :
    Auth.toLower req.method = Auth.toLower req'.method ∧ req.path = req'.path ∧
      req.query = req'.query := by
  obtain ⟨-, hl⟩ := (signingLine_eq_ok h).resolve_right (by simp)
  obtain ⟨-, hl'⟩ := (signingLine_eq_ok h').resolve_right (by simp)
  have hrest := (signingLine_inj (by decide) (by decide) (hl.symm.trans hl')).2
  obtain ⟨hmethod, htarget⟩ := append_cons_inj (not_mem_toLower (by decide) req.method_word)
    (not_mem_toLower (by decide) req'.method_word) hrest
  exact ⟨hmethod, target_inj htarget⟩

/-! ### Operations -/

/-- The methods by which an operation is reached. -/
def methods : List String := ["GET", "HEAD", "POST", "PUT", "DELETE"]

section Methods

variable {method : String} {bucket : Text}

theorem namespaceOperation_method {explicitNamespace : Bool}
    (h : namespaceOperation method explicitNamespace = .ok op) : method ∈ methods := by
  unfold namespaceOperation at h
  split at h
  · simp [methods]
  · exact absurd h (by simp)

theorem collectionOperation_method (h : collectionOperation method = .ok op) :
    method ∈ methods := by
  unfold collectionOperation at h
  split at h
  · simp [methods]
  · exact absurd h (by simp)

theorem bucketOperation_method (h : bucketOperation method bucket = .ok op) :
    method ∈ methods := by
  unfold bucketOperation at h
  split at h
  · exact absurd h (by simp)
  · simp [methods]
  · simp [methods]
  · exact absurd h (by simp)

theorem parOperation_method {id : Option Text} (h : parOperation method bucket id = .ok op) :
    method ∈ methods := by
  unfold parOperation at h
  cases id with
  | none =>
    dsimp only at h
    split at h
    · simp [methods]
    · simp [methods]
    · exact absurd h (by simp)
  | some id =>
    dsimp only at h
    split at h
    · simp [methods]
    · simp [methods]
    · exact absurd h (by simp)

theorem multipartOperation_method {object : Option Text}
    (h : multipartOperation K req bucket object = .ok op) :
    String.ofList req.method ∈ methods ∧ (String.ofList req.method = "PUT" → object.isSome = true →
      ∃ uploadId, op = .uploadPart bucket uploadId) := by
  unfold multipartOperation at h
  cases object with
  | none =>
    dsimp only at h
    split at h
    · next hmethod => simp [hmethod, methods]
    · exact absurd h (by simp)
  | some object =>
    dsimp only at h
    cases hobject : decodeObjectPath K object with
    | error e => simp [hobject, bind, Except.bind] at h
    | ok object =>
      simp only [hobject, bind, Except.bind] at h
      split at h
      · exact absurd h (by simp)
      · split at h
        · next hmethod =>
          cases h
          simp [hmethod, methods]
        · next hmethod => simp [hmethod, methods]
        · next hmethod => simp [hmethod, methods]
        · exact absurd h (by simp)

theorem objectOperation_method {object : Option Text}
    (h : objectOperation K req bucket object = .ok op) :
    String.ofList req.method ∈ methods ∧ (String.ofList req.method = "PUT" → object.isSome = true →
      ∃ key, op = .putObject bucket key) := by
  unfold objectOperation at h
  cases object with
  | none =>
    dsimp only at h
    split at h
    · next hmethod => simp [hmethod, methods]
    · exact absurd h (by simp)
  | some object =>
    dsimp only at h
    split at h
    · exact absurd h (by simp)
    · cases hobject : decodeObjectPath K object with
      | error e => simp [hobject, bind, Except.bind] at h
      | ok object =>
        simp only [hobject, bind, Except.bind] at h
        split at h
        · next hmethod =>
          cases h
          simp [hmethod, methods]
        · next hmethod => simp [hmethod, methods]
        · next hmethod => simp [hmethod, methods]
        · next hmethod => simp [hmethod, methods]
        · exact absurd h (by simp)

end Methods

/-- The operation writes bytes that its signature need not cover. -/
def Operation.IsUpload : Operation → Prop
  | .putObject .. | .uploadPart .. => True
  | _ => False

/-- **An operation is reached by one of five methods**, and by an exempted `PUT` only if it is an
upload. -/
theorem operation_method {explicitNamespace : Bool}
    (h : operationOf K req explicitNamespace parts = .ok op) :
    String.ofList req.method ∈ methods ∧ (uploadPut req parts = true → op.IsUpload) := by
  unfold operationOf at h
  rcases parts with - | ⟨b, - | ⟨bucket, - | ⟨kind, rest⟩⟩⟩
  · exact ⟨namespaceOperation_method h, by simp [uploadPut]⟩
  · dsimp only at h
    split at h
    · exact ⟨collectionOperation_method h, by simp [uploadPut]⟩
    · exact absurd h (by simp)
  · dsimp only at h
    split at h
    · exact ⟨bucketOperation_method h, by simp [uploadPut]⟩
    · exact absurd h (by simp)
  · have hobject : uploadPut req (b :: bucket :: kind :: rest) = true →
        String.ofList req.method = "PUT" ∧
        (if rest.isEmpty then none else some (join '/' rest) : Option Text).isSome = true ∧
        (kind = "o".toList ∨ kind = "u".toList) := by
      intro hput
      simp only [uploadPut, Bool.and_eq_true, Bool.or_eq_true, decide_eq_true_eq, List.length_cons,
        List.getElem?_cons_succ, List.getElem?_cons_zero, Option.some.injEq] at hput
      obtain ⟨⟨⟨hmethod, hlen⟩, -⟩, hkind⟩ := hput
      refine ⟨by rw [hmethod, String.ofList_toList], ?_, hkind⟩
      rw [if_neg (by cases rest <;> simp_all)]
      rfl
    dsimp only at h
    split at h
    · exact absurd h (by simp)
    split at h
    · obtain ⟨hmethod, hput⟩ := multipartOperation_method h
      refine ⟨hmethod, fun hupload ↦ ?_⟩
      obtain ⟨hmethod, hobject, -⟩ := hobject hupload
      obtain ⟨uploadId, rfl⟩ := hput hmethod hobject
      trivial
    split at h
    · next hkind =>
      refine ⟨parOperation_method h, fun hupload ↦ ?_⟩
      rcases (hobject hupload).2.2 with h' | h' <;> rw [h'] at hkind <;>
        exact absurd hkind (by decide)
    split at h
    · obtain ⟨hmethod, hput⟩ := objectOperation_method h
      refine ⟨hmethod, fun hupload ↦ ?_⟩
      obtain ⟨hmethod, hobject, -⟩ := hobject hupload
      obtain ⟨key, rfl⟩ := hput hmethod hobject
      trivial
    · exact absurd h (by simp)

/-! ### Executed requests -/

/-- The request lists the names `names`, and its signature, over `text`, is one of the configured
key. -/
structure SignedBy (K : Crates) (config : AuthConfig) (req : Request) (now : Time)
    (names : List Text) (text signature : Text) : Prop where
  listed : ∃ parameters, signatureParameters config req = .ok parameters ∧
    names = signedNames parameters ∧ signature = parameters["signature".toList]?.getD []
  signed : signingString req names = .ok text
  verified : ∃ key bytes, config.publicKey = some key ∧ K.base64Decode signature = some bytes ∧
    K.verify key text bytes = true
  covers : requestTarget ∈ names ∧ "host".toList ∈ names ∧ req.dateHeader ∈ names
  recent : ∃ value date, req.header req.dateHeader = some value ∧ K.parseRfc2822 value = some date ∧
    Recent date now

/-- What describes the body is signed, and describes it. -/
structure ContentSigned (K : Crates) (req : Request) (names : List Text) : Prop where
  covers : ∀ name ∈ contentNames, name ∈ names
  hash : ∃ value, req.header "x-content-sha256".toList = some value ∧
    K.base64Decode value = some (K.sha256 req.body)
  length : ∃ value, req.header "content-length".toList = some value ∧
    parseU64 (String.ofList value) = some req.body.length

theorem verifySignature_eq_ok {signature : Text} (h : verifySignature K config text signature = .ok ()) :
    ∃ key bytes, config.publicKey = some key ∧ K.base64Decode signature = some bytes ∧
      K.verify key text bytes = true := by
  unfold verifySignature at h
  split at h
  · exact absurd h (by simp)
  · next key hkey =>
    split at h
    · exact absurd h (by simp)
    · split at h
      · exact absurd h (by simp)
      · next bytes hbytes =>
        split at h
        · next hverify => exact ⟨key, bytes, hkey, (Option.filter_eq_some_iff.1 hbytes).1, hverify⟩
        · exact absurd h (by simp)

theorem checkNames_eq_ok (h : checkNames K req parts names now = .ok ()) :
    (requestTarget ∈ names ∧ "host".toList ∈ names ∧ req.dateHeader ∈ names) ∧
    coversContent req parts names = true ∧ hashMatches K req names = true ∧
    lengthMatches req names = true ∧
    ∃ value date, req.header req.dateHeader = some value ∧ K.parseRfc2822 value = some date ∧
      Recent date now := by
  unfold checkNames at h
  split at h
  · exact absurd h (by simp)
  next hnames =>
  simp only [Bool.or_eq_true, Bool.not_eq_true', not_or, Bool.not_eq_false] at hnames
  obtain ⟨⟨⟨⟨hhead, hdate⟩, hcontent⟩, hhash⟩, hlength⟩ := hnames
  simp only [coversHead, Bool.and_eq_true, List.contains_iff_mem] at hhead hdate
  split at h
  · next hrecent =>
    obtain ⟨date, hparsed, hrecent⟩ := (Option.any_eq_true _ _).1 hrecent
    obtain ⟨value, hvalue, hparsed⟩ := Option.bind_eq_some_iff.1 hparsed
    exact ⟨⟨hhead.1.1, hhead.1.2, hdate⟩, hcontent, hhash, hlength, value, date, hvalue, hparsed,
      by simpa using hrecent⟩
  · exact absurd h (by simp)

/-- A signed name is that of a header. -/
theorem exists_header (h : signingString req names = .ok text) (hname : name ∈ names)
    (hne : name ≠ requestTarget) : ∃ value, req.header name = some value := by
  obtain ⟨lines, hlines, -⟩ := signingString_eq_ok h
  obtain ⟨line, -, hline⟩ := exists_line hlines hname
  obtain ⟨-, value, hvalue, -⟩ := (signingLine_eq_ok hline).resolve_left fun h ↦ hne h.1
  exact ⟨value, hvalue⟩

theorem contentSigned (hsigned : signingString req names = .ok text)
    (hcovers : ∀ name ∈ contentNames, name ∈ names) (hhash : hashMatches K req names = true)
    (hlength : lengthMatches req names = true) : ContentSigned K req names := by
  have hnames : "x-content-sha256".toList ∈ names ∧ "content-length".toList ∈ names :=
    ⟨hcovers _ (by simp [contentNames]), hcovers _ (by simp [contentNames])⟩
  refine ⟨hcovers, ?_, ?_⟩
  · obtain ⟨value, hvalue⟩ := exists_header hsigned hnames.1 (by decide)
    rw [hashMatches, hvalue] at hhash
    exact ⟨value, hvalue, by simpa using (Bool.and_eq_true_iff.1 hhash).2⟩
  · obtain ⟨value, hvalue⟩ := exists_header hsigned hnames.2 (by decide)
    rw [lengthMatches, hvalue, List.contains_iff_mem.2 hnames.2] at hlength
    exact ⟨value, hvalue, by simpa using hlength⟩

theorem authorize_eq_ok (henforced : config.ociAuthEnforced = true)
    (h : authorize K config req parts now = .ok ()) :
    ∃ names text signature, SignedBy K config req now names text signature ∧
      coversContent req parts names = true ∧ hashMatches K req names = true ∧
      lengthMatches req names = true := by
  unfold authorize at h
  rw [henforced] at h
  simp only [Bool.not_true, Bool.false_eq_true, if_false] at h
  cases hparameters : signatureParameters config req with
  | error e => simp [hparameters, bind, Except.bind] at h
  | ok parameters =>
    simp only [hparameters, bind, Except.bind] at h
    cases hcheck : checkNames K req parts (signedNames parameters) now with
    | error e => simp [hcheck] at h
    | ok =>
      simp only [hcheck] at h
      cases htext : signingString req (signedNames parameters) with
      | error e => simp [htext] at h
      | ok text =>
        simp only [htext] at h
        obtain ⟨hcovers, hcontent, hhash, hlength, hrecent⟩ := checkNames_eq_ok hcheck
        exact ⟨_, text, _, ⟨⟨parameters, hparameters, rfl, rfl⟩, htext, verifySignature_eq_ok h, hcovers,
          hrecent⟩, hcontent, hhash, hlength⟩

theorem handleRequest_eq_ok (h : handleRequest K config req now = .ok op)
    (hop : op ≠ .preauthenticated) : ∃ explicitNamespace parts,
      authorize K config req parts now = .ok () ∧
      operationOf K req explicitNamespace parts = .ok op := by
  unfold handleRequest at h
  split at h
  · cases h
    exact absurd rfl hop
  · cases hpath : parsePath req with
    | error e => simp [hpath, bind, Except.bind] at h
    | ok parsed =>
      obtain ⟨namespace', parts, explicitNamespace⟩ := parsed
      simp only [hpath, bind, Except.bind] at h
      cases hauth : authorize K config req parts now with
      | error e => simp [hauth] at h
      | ok =>
        simp only [hauth] at h
        split at h
        · exact absurd h (by simp)
        · exact ⟨explicitNamespace, parts, hauth, h⟩

/-- The five methods differ also in lower case. -/
theorem method_of_toLower {method method' : Text} (h : String.ofList method ∈ methods)
    (h' : String.ofList method' ∈ methods) (heq : Auth.toLower method = Auth.toLower method') :
    method = method' := by
  have hall : ∀ a ∈ methods, ∀ b ∈ methods, Auth.toLower a.toList = Auth.toLower b.toList → a = b := by
    decide
  have hstring := hall _ h _ h' (by simpa using heq)
  simpa using congrArg String.toList hstring

/-! ### Values -/

/-- No signed header is sent twice. -/
def SentOnce (req : Request) (names : List Text) : Prop :=
  ∀ name ∈ names, name ≠ requestTarget → (req.headerValues name).length ≤ 1

/-- The signed headers have the same values in both requests, up to whitespace. -/
def SameValues (req req' : Request) (names : List Text) : Prop :=
  ∀ name ∈ names, name ≠ requestTarget →
    (req.headerValues name).map Auth.normalizeHeaderValue =
      (req'.headerValues name).map Auth.normalizeHeaderValue

/-- The first value of a header is one of its values. -/
theorem exists_headerValues {value : Text} (h : req.header name = some value) :
    ∃ rest, req.headerValues name = value :: rest := by
  unfold Auth.HttpRequest.header at h
  obtain ⟨⟨n, v⟩, hfind, hv⟩ := Option.bind_eq_some_iff.1 h
  obtain rfl : v = some value := hv
  obtain ⟨hname, before, after, hheaders, hbefore⟩ := List.find?_eq_some_iff_append.1 hfind
  obtain rfl : n = name := by simpa using hname
  have hnone : (before.filterMap fun h ↦ h.2.map fun value ↦ (h.1, value)).filter (·.1 = n) = [] := by
    rw [List.filter_eq_nil_iff]
    intro h hh
    obtain ⟨⟨n', v'⟩, hmem, hsome⟩ := List.mem_filterMap.1 hh
    obtain ⟨w, -, rfl⟩ := Option.map_eq_some_iff.1 hsome
    simpa using hbefore _ hmem
  rw [Auth.HttpRequest.headerValues, Auth.HttpRequest.visibleHeaders, hheaders, List.filterMap_append,
    List.filter_append, hnone, List.nil_append,
    List.filterMap_cons_some (b := (n, value)) (by rfl), List.filter_cons_of_pos (by simp)]
  exact ⟨_, rfl⟩

/-- **One signed text, the same values**: of requests that send each signed header once, and of no
other request together with one that does. -/
theorem sameValues_iff (hsigned : signingString req names = .ok text)
    (hsigned' : signingString req' names = .ok text) (hne : names ≠ []) (honce : SentOnce req names) :
    SameValues req req' names ↔ SentOnce req' names := by
  obtain ⟨-, hlines⟩ := signingString_inj hne hne hsigned hsigned'
  refine forall₃_congr fun name hname htarget ↦ ?_
  obtain ⟨line, hline, hline'⟩ := hlines name hname
  obtain ⟨-, value, hvalue, hl⟩ := (signingLine_eq_ok hline).resolve_left fun h ↦ htarget h.1
  obtain ⟨-, value', hvalue', hl'⟩ := (signingLine_eq_ok hline').resolve_left fun h ↦ htarget h.1
  have hsame : Auth.normalizeHeaderValue value = Auth.normalizeHeaderValue value' := by
    simpa using hl.symm.trans hl'
  obtain ⟨rest, hvalues⟩ := exists_headerValues hvalue
  obtain ⟨rest', hvalues'⟩ := exists_headerValues hvalue'
  have hrest := honce name hname htarget
  rw [hvalues, List.length_cons] at hrest
  obtain rfl : rest = [] := List.length_eq_zero_iff.1 (by omega)
  rw [hvalues, hvalues', List.map_cons, List.map_cons, List.map_nil, hsame, List.cons_eq_cons,
    List.length_cons, eq_comm (a := []), List.map_eq_nil_iff]
  refine ⟨fun h ↦ by rw [h.2]; simp, fun h ↦ ⟨rfl, List.length_eq_zero_iff.1 (by omega)⟩⟩

/-- **An executed request is signed.** With authentication enforced, every request that comes to an
operation carries a signature of the configured key over its target, host and date. What describes
the body of an operation that is no upload is signed and right exactly for a `POST`, for a `PUT`, and
for a request that lists it. And two requests over the same signed text have the same method and
target and list the same headers, with the same values if they send each of these once. -/
theorem executed_requests_are_signed (henforced : config.ociAuthEnforced = true) :
    (∀ (req : Request) (now : Time) (op : Operation), handleRequest K config req now = .ok op →
      op ≠ .preauthenticated → ∃ names text signature, SignedBy K config req now names text signature ∧
        ((¬ op.IsUpload → ContentSigned K req names) ↔
          op.IsUpload ∨ req.method = "POST".toList ∨ req.method = "PUT".toList ∨
            ∀ name ∈ contentNames, name ∈ names)) ∧
    (∀ (req req' : Request) (now now' : Time) (op op' : Operation) (names names' : List Text)
      (text signature : Text), handleRequest K config req now = .ok op → op ≠ .preauthenticated →
      handleRequest K config req' now' = .ok op' → op' ≠ .preauthenticated →
      SignedBy K config req now names text signature →
      SignedBy K config req' now' names' text signature →
      req.method = req'.method ∧ req.path = req'.path ∧ req.query = req'.query ∧ names = names' ∧
        (SentOnce req names → (SameValues req req' names ↔ SentOnce req' names'))) := by
  refine ⟨fun req now op h hop ↦ ?_, ?_⟩
  · obtain ⟨explicitNamespace, parts, hauth, hoperation⟩ := handleRequest_eq_ok h hop
    obtain ⟨names, text, signature, hsigned, hcontent, hhash, hlength⟩ :=
      authorize_eq_ok henforced hauth
    refine ⟨names, text, signature, hsigned, ?_⟩
    by_cases hupload : op.IsUpload
    · exact iff_of_true (fun h ↦ absurd hupload h) (.inl hupload)
    have hput : uploadPut req parts = false := by
      rw [Bool.eq_false_iff]
      exact fun hput ↦ hupload ((operation_method hoperation).2 hput)
    constructor
    · exact fun hcontent ↦ .inr (.inr (.inr (hcontent hupload).covers))
    · rintro (hupload' | hmethod | hmethod | hcovers) -
      · exact absurd hupload' hupload
      · refine contentSigned hsigned.signed ?_ hhash hlength
        simpa [coversContent, hmethod, hput] using hcontent
      · refine contentSigned hsigned.signed ?_ hhash hlength
        simpa [coversContent, hmethod, hput] using hcontent
      · exact contentSigned hsigned.signed hcovers hhash hlength
  · intro req req' now now' op op' names names' text signature h hop h' hop' hsigned hsigned'
    have hne := List.ne_nil_of_mem hsigned.covers.1
    obtain ⟨rfl, hlines⟩ := signingString_inj hne (List.ne_nil_of_mem hsigned'.covers.1)
      hsigned.signed hsigned'.signed
    obtain ⟨line, hline, hline'⟩ := hlines _ hsigned.covers.1
    obtain ⟨hmethod, hpath, hquery⟩ := targetLine_inj hline hline'
    obtain ⟨_, _, -, hoperation⟩ := handleRequest_eq_ok h hop
    obtain ⟨_, _, -, hoperation'⟩ := handleRequest_eq_ok h' hop'
    exact ⟨method_of_toLower (operation_method hoperation).1 (operation_method hoperation').1 hmethod,
      hpath, hquery, rfl, sameValues_iff hsigned.signed hsigned'.signed hne⟩

/-! ### Signed requests -/

/-- The value of a character of a base64 text. -/
def base64Digit (c : Char) : Option ℕ :=
  if c.isUpper then some (c.toNat - 'A'.toNat)
  else if c.isLower then some (c.toNat - 'a'.toNat + 26)
  else if c.isDigit then some (c.toNat - '0'.toNat + 52)
  else if c = '+' then some 62 else if c = '/' then some 63 else none

/-- The standard base64 decoding of texts in groups of four. -/
def base64 : Text → Option Bytes
  | [] => some []
  | [a, b, '=', '='] => do
    let n := (← base64Digit a) * 64 + (← base64Digit b)
    if n % 16 = 0 then some [UInt8.ofNat (n / 16)] else none
  | [a, b, c, '='] => do
    let n := ((← base64Digit a) * 64 + (← base64Digit b)) * 64 + (← base64Digit c)
    if n % 4 = 0 then some [UInt8.ofNat (n / 1024), UInt8.ofNat (n / 4 % 256)] else none
  | a :: b :: c :: d :: rest => do
    let n := (((← base64Digit a) * 64 + (← base64Digit b)) * 64 + (← base64Digit c)) * 64 +
      (← base64Digit d)
    let bytes ← base64 rest
    some (UInt8.ofNat (n / 65536) :: UInt8.ofNat (n / 256 % 256) :: UInt8.ofNat (n % 256) :: bytes)
  | _ => none

/-- A public key of 512 bits. -/
def samplePublicKey : Text :=
  "-----BEGIN PUBLIC KEY-----\n".toList ++ "MFwwDQYJKoZIhvcNAQEBBQADSwAwSAJBA".toList ++
  "Lp2rgp+OCM1NXYDup/1YpaOvl31mSqM\n".toList ++ "36mq7R8H7rtR73jrIn+C8MAQYEBlj/psM".toList ++
  "KHdvNKePDKm8J9r8D3BOVsCAwEAAQ==\n".toList ++ "-----END PUBLIC KEY-----\n".toList

/-- The signatures of the key over the three texts below. -/
def sampleGetSignature : Text :=
  "LuHf4wrra/WRWJDou5co8OTXnPpH0R".toList ++ "kWb1whO3sytQ2xXTFvdY3ISAsk5h1h".toList ++
  "gk7fxd0AbRUEfgI3FUStZ4kZ5g==".toList

/-- A signature of the text `samplePostText`. -/
def samplePostSignature : Text :=
  "GmB6LS+NdGbAnRMXKen2OIv6gvhphr".toList ++ "2aQRyNISLBcYtsgsGTcTigI8Omvx76".toList ++
  "RKqFMvjNMbDbbVl2R75cEh+Z+Q==".toList

/-- A signature of the text `samplePutText`. -/
def samplePutSignature : Text :=
  "f3T3JMkrZZUh14MznJXPVwzLfstpOp".toList ++ "LrtEH0qB/LbRqP1pYiMFOf4Oy9nmc4".toList ++
  "Ov6GHGYe+0ZJW/Gqzxk8Q0Q24Q==".toList

/-- The date of the sample requests. -/
def sampleDate : Text := "Mon, 01 Jan 2024 00:00:00 GMT".toList

/-- The body of the second request, and its hash. -/
def sampleBody : Bytes :=
  (Char.toNat <$> "\x7b\"name\":\"b\",\"compartmentId\":\"c\"\x7d".toList).map UInt8.ofNat

/-- The digest of the sample body. -/
def sampleHash : Text := "nh579d07JEIuCgf52UI7WY4/mCCP3YP1QgH1S8p9iOw=".toList

/-- The signing text of a GET. -/
def sampleGetText : Text := join '\n'
  ["(request-target): get /n".toList, "host: localhost".toList, "date: ".toList ++ sampleDate]

/-- The signing text of a POST. -/
def samplePostText : Text := join '\n'
  ["(request-target): post /n/sqrzl-emulator/b".toList, "host: localhost".toList,
    "date: ".toList ++ sampleDate, "x-content-sha256: ".toList ++ sampleHash,
    "content-type: application/json".toList, "content-length: 32".toList]

/-- The signing text of a PUT. -/
def samplePutText : Text := join '\n'
  ["(request-target): put /n/sqrzl-emulator/b/b/o/k".toList, "host: localhost".toList,
    "date: ".toList ++ sampleDate, "opc-meta-owner: alice".toList]

/-- The crates, as far as the requests use them. -/
def sampleCrates : Crates where
  toCrates := Auth.asciiCrates [] [] 0 (fun _ ↦ []) (by simp) (fun _ _ ↦ []) (fun _ _ ↦ [])
  base64Decode := base64
  sha256 body := if body = sampleBody then (base64 sampleHash).getD [] else []
  parseRfc2822 date := if date = sampleDate then some (Auth.minutes 28401120) else none
  isPublicKey key := key = samplePublicKey
  isSignature bytes := bytes.length = 64
  verify key text bytes := key = samplePublicKey &&
    ((text = sampleGetText && some bytes = base64 sampleGetSignature) ||
      (text = samplePostText && some bytes = base64 samplePostSignature) ||
      (text = samplePutText && some bytes = base64 samplePutSignature))

/-- The key that the front door knows. -/
def sampleConfig : AuthConfig where
  enforceAuth := false
  tenancyOcid := some "t".toList
  userOcid := some "u".toList
  keyFingerprint := some "f".toList
  publicKeyPath := some "key.pem".toList
  readToString path := if path = "key.pem".toList then some samplePublicKey else none

/-- An authorization header. -/
def sampleAuthorization (names : List String) (signature : Text) : Text :=
  "Signature version=\"1\",".toList ++ "keyId=\"t/u/f\",".toList ++
    "algorithm=\"rsa-sha256\",".toList ++ "headers=\"".toList ++
    join ' ' (names.map String.toList) ++ "\",signature=\"".toList ++ signature ++ "\"".toList

theorem samplePost_values (name value : Text)
    (h : (name, some value) ∈ [("host".toList, some "localhost".toList),
      ("date".toList, some sampleDate), ("x-content-sha256".toList, some sampleHash),
      ("content-type".toList, some "application/json".toList),
      ("content-length".toList, some "32".toList),
      ("authorization".toList, some (sampleAuthorization ["(request-target)", "host", "date",
        "x-content-sha256", "content-type", "content-length"] samplePostSignature))]) :
    '\n' ∉ value ∧ Auth.Trimmed value := by
  simp only [List.mem_cons, Prod.mk.injEq, Option.some.injEq, List.not_mem_nil, or_false] at h
  rcases h with ⟨-, rfl⟩ | ⟨-, rfl⟩ | ⟨-, rfl⟩ | ⟨-, rfl⟩ | ⟨-, rfl⟩ | ⟨-, rfl⟩ <;> decide

/-- The creation of a bucket. -/
def samplePost : Request where
  method := "POST".toList
  path := "/n/sqrzl-emulator/b".toList
  headers := [("host".toList, some "localhost".toList), ("date".toList, some sampleDate),
    ("x-content-sha256".toList, some sampleHash),
    ("content-type".toList, some "application/json".toList),
    ("content-length".toList, some "32".toList),
    ("authorization".toList, some (sampleAuthorization ["(request-target)", "host", "date",
      "x-content-sha256", "content-type", "content-length"] samplePostSignature))]
  body := sampleBody
  method_token := Auth.plain_post
  headers_names := by decide
  headers_values := samplePost_values
  hint_plain := Auth.plain_of_no_hint
  method_word := word_post
  path_plain := by decide
  query_plain := plain_of_no_query
  headers_tokens := by decide

theorem samplePost_executed :
    handleRequest sampleCrates sampleConfig samplePost (Auth.minutes 28401121) =
      .ok .createBucket := by
  decide +kernel

/-- The creation of the bucket is signed, with its body. -/
theorem create_bucket_is_signed : ∃ names text signature,
    SignedBy sampleCrates sampleConfig samplePost (Auth.minutes 28401121) names text signature ∧
      ContentSigned sampleCrates samplePost names := by
  obtain ⟨names, text, signature, hsigned, hcontent⟩ :=
    (executed_requests_are_signed (K := sampleCrates) (by decide)).1
      samplePost _ _ samplePost_executed (by decide)
  exact ⟨names, text, signature, hsigned, hcontent.2 (.inr (.inl rfl)) fun h ↦ h⟩

/-! ### Metadata sent twice -/

/-- `metadata_from_headers` -/
def metadataFromHeaders (req : Request) : Table Text Text :=
  Auth.lastValues (req.visibleHeaders.filterMap fun h ↦
    (Auth.stripStart "opc-meta-".toList h.1).map fun key ↦ (key, h.2))

theorem samplePut_values (twice : Bool) (name value : Text)
    (h : (name, some value) ∈ [("host".toList, some "localhost".toList),
      ("date".toList, some sampleDate), ("authorization".toList,
        some (sampleAuthorization ["(request-target)", "host", "date", "opc-meta-owner"]
          samplePutSignature)), ("opc-meta-owner".toList, some "alice".toList)] ++
      if twice then [("opc-meta-owner".toList, some "mallory".toList)] else []) :
    '\n' ∉ value ∧ Auth.Trimmed value := by
  cases twice
  all_goals
    simp only [List.mem_cons, List.mem_append, Prod.mk.injEq, Option.some.injEq, List.not_mem_nil,
      or_false, if_true, if_false, Bool.false_eq_true] at h
  · rcases h with ⟨-, rfl⟩ | ⟨-, rfl⟩ | ⟨-, rfl⟩ | ⟨-, rfl⟩ <;> decide
  · rcases h with (⟨-, rfl⟩ | ⟨-, rfl⟩ | ⟨-, rfl⟩ | ⟨-, rfl⟩) | ⟨-, rfl⟩ <;> decide

/-- An upload with signed metadata, which may be sent once more with another value. -/
def samplePut (twice : Bool) : Request where
  method := "PUT".toList
  path := "/n/sqrzl-emulator/b/b/o/k".toList
  headers := [("host".toList, some "localhost".toList), ("date".toList, some sampleDate),
    ("authorization".toList,
      some (sampleAuthorization ["(request-target)", "host", "date", "opc-meta-owner"]
        samplePutSignature)), ("opc-meta-owner".toList, some "alice".toList)] ++
      if twice then [("opc-meta-owner".toList, some "mallory".toList)] else []
  method_token := Auth.plain_put
  headers_names := by cases twice <;> decide
  headers_values := samplePut_values twice
  hint_plain := Auth.plain_of_no_hint
  method_word := word_put
  path_plain := by decide
  query_plain := plain_of_no_query
  headers_tokens := by cases twice <;> decide

theorem samplePut_executed (twice : Bool) :
    handleRequest sampleCrates sampleConfig (samplePut twice) (Auth.minutes 28401121) =
      .ok (.putObject "b".toList "k".toList) := by
  cases twice <;> decide +kernel

/-- **The second value of a signed header is not signed**, and it becomes the metadata of the
object. -/
theorem repeated_metadata_is_not_signed :
    (∀ twice, handleRequest sampleCrates sampleConfig (samplePut twice) (Auth.minutes 28401121) =
      .ok (.putObject "b".toList "k".toList)) ∧
    (∃ names text signature, "opc-meta-owner".toList ∈ names ∧
      SignedBy sampleCrates sampleConfig (samplePut false) (Auth.minutes 28401121) names text
        signature ∧
      SignedBy sampleCrates sampleConfig (samplePut true) (Auth.minutes 28401121) names text
        signature ∧
      ¬ SameValues (samplePut false) (samplePut true) names) ∧
    (metadataFromHeaders (samplePut false))["owner".toList]? = some "alice".toList ∧
    (metadataFromHeaders (samplePut true))["owner".toList]? = some "mallory".toList := by
  refine ⟨samplePut_executed, ?_, by decide, by decide⟩
  -- both requests carry the same signature over the same text
  have hsigned : ∀ twice, SignedBy sampleCrates sampleConfig (samplePut twice)
      (Auth.minutes 28401121)
      [requestTarget, "host".toList, "date".toList, "opc-meta-owner".toList] samplePutText
      samplePutSignature := by
    intro twice
    refine ⟨?_, by cases twice <;> decide, ?_, by cases twice <;> decide,
      sampleDate, Auth.minutes 28401120, by cases twice <;> decide, by decide, by decide⟩
    · have hlisted : ∀ twice, ((signatureParameters sampleConfig (samplePut twice)).toOption.map
          fun parameters ↦ (signedNames parameters, parameters["signature".toList]?.getD [])) =
          some ([requestTarget, "host".toList, "date".toList, "opc-meta-owner".toList],
            samplePutSignature) := by
        decide +kernel
      obtain ⟨parameters, hparameters, hpair⟩ := Option.map_eq_some_iff.1 (hlisted twice)
      obtain ⟨hnames, hsignature⟩ := Prod.mk.inj hpair
      refine ⟨parameters, ?_, hnames.symm, hsignature.symm⟩
      cases hresult : signatureParameters sampleConfig (samplePut twice) with
      | error e => rw [hresult] at hparameters; cases hparameters
      | ok found => rw [hresult] at hparameters; cases hparameters; rfl
    · refine ⟨samplePublicKey, (base64 samplePutSignature).getD [], by decide +kernel, by decide +kernel, ?_⟩
      decide +kernel
  refine ⟨_, _, _, by decide, hsigned false, hsigned true, fun hsame ↦ ?_⟩
  have hvalues := congrArg List.length (hsame "opc-meta-owner".toList (by decide) (by decide))
  revert hvalues
  decide

end Sqrzl.Oci
