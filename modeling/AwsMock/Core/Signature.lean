import AwsMock.Core.QueryReading
import Mathlib.Data.List.Sort
import Mathlib.Data.Set.List

/-! # What a signature says about a request

A signer computes the canonical request of the request it is given. When a request
is accepted with a signature that was computed for another one, the two have the
same canonical request, so what can differ is what the canonical request of the
accepted one leaves out.
-/

namespace AwsMock

open Http HttpUtils AwsUtils

section Requests

namespace Http.Request

variable (request : Request)

/-- What the parser of requests makes sure of, and the absolute path that `HandleRequest` asks for. -/
structure WellFormed : Prop where
  absolute : request.target.head? = some 47
  method : 60 ∉ request.methodString ∧ 10 ∉ request.methodString
  fields : ∀ field ∈ request.fields, 10 ∉ field.1 ∧ 10 ∉ field.2

def values (name : Bytes) : List Bytes :=
  (request.fields.filter fun field => Bytes.iequals field.1 name).map Prod.snd

/-- The value of a header: its fields with a comma between them, up to blanks. -/
def headerValue (name : Bytes) : Bytes :=
  (ascii ",").intercalate ((request.values name).map normalizeHeaderValue)

end Http.Request

end Requests

def markers : List Bytes :=
  ["UNSIGNED-PAYLOAD", "STREAMING-UNSIGNED-PAYLOAD-TRAILER", "STREAMING-AWS4-HMAC-SHA256-PAYLOAD",
    "STREAMING-AWS4-HMAC-SHA256-PAYLOAD-TRAILER", "STREAMING-AWS4-ECDSA-P256-SHA256-PAYLOAD",
    "STREAMING-AWS4-ECDSA-P256-SHA256-PAYLOAD-TRAILER"].map ascii

structure Signing where
  date : Bytes
  region : Bytes
  service : Bytes
  isoDate : Bytes
  signedHeaders : List Bytes
  payloadHash : Bytes
  parameters : List (Bytes × Bytes)

namespace Signing

variable (signing : Signing) (digests : Digests) (secretAccessKey : Bytes) (request : Request)

/-- A correct signer reads the query, signs headers that are there, and hashes the
body or says that it does not. -/
structure Signs : Prop where
  parameters : request.parameters = some signing.parameters
  signedHeaders : signing.signedHeaders ≠ []
  names : ∀ name ∈ signing.signedHeaders, 59 ∉ name ∧ 10 ∉ name
  present : ∀ name ∈ signing.signedHeaders, hasHeader request name = true
  payload : signing.payloadHash = getHashedPayload digests request.body ∨
    signing.payloadHash ∈ markers

def encodePair (parameter : Bytes × Bytes) : Bytes × Bytes :=
  (sigV4Encode parameter.1, sigV4Encode parameter.2)

def goesBefore (first second : Bytes × Bytes) : Bool :=
  first.1 < second.1 || (first.1 = second.1 && first.2 ≤ second.2)

def canonicalQuery : Bytes :=
  (ascii "&").intercalate (((signing.parameters.map encodePair).mergeSort goesBefore).map
    fun parameter => parameter.1 ++ ascii "=" ++ parameter.2)

def headerLine (name value : Bytes) : Bytes := Bytes.toLower name ++ ascii ":" ++ value

def canonicalHeaders : Bytes :=
  signing.signedHeaders.flatMap fun name =>
    headerLine name (request.headerValue name) ++ ascii "\n"

def canonicalRequest : Bytes :=
  (ascii "\n").intercalate [request.methodString, awsUrlEncode (path request.target),
    signing.canonicalQuery, signing.canonicalHeaders request,
    (ascii ";").intercalate signing.signedHeaders, signing.payloadHash]

def stringToSign : Bytes :=
  (ascii "\n").intercalate [ascii "AWS4-HMAC-SHA256", signing.isoDate,
    signing.date ++ ascii "/" ++ signing.region ++ ascii "/" ++ signing.service ++
      ascii "/aws4_request",
    Crypto.getSha256FromString digests (signing.canonicalRequest request)]

def signature : Bytes :=
  let digest := digests.hmacSha256 (ascii "AWS4" ++ secretAccessKey) signing.date
  let digest := digests.hmacSha256 digest signing.region
  let digest := digests.hmacSha256 digest signing.service
  let digest := digests.hmacSha256 digest (ascii "aws4_request")
  Crypto.hexEncode (digests.hmacSha256 digest (signing.stringToSign digests request))

structure Authenticates (original : Request) : Prop where
  method : request.methodString = original.methodString
  path : path request.target = path original.target
  parameters : ∃ parameters, request.parameters = some parameters ∧
    parameters.Perm signing.parameters
  headers : ∀ name ∈ signing.signedHeaders, request.headerValue name = original.headerValue name
  body : signing.payloadHash ∈ markers ∨ request.body = original.body

end Signing

structure Digests.Injective (digests : Digests) : Prop where
  sha256 : Function.Injective digests.sha256
  hmacSha256 : ∀ {key message key' message'},
    digests.hmacSha256 key message = digests.hmacSha256 key' message' →
      key = key' ∧ message = message'

section Lines

theorem newline_notMem_toBytes {request : Request} (hrequest : request.WellFormed) :
    10 ∉ request.method.toBytes := by
  rcases @toBytes_stringToVerb request.methodString with heq | heq
  · rw [Request.method, heq]
    exact hrequest.method.2
  · rw [Request.method, heq]
    decide

theorem mem_collapse {value : Bytes} {prevSpace : Bool} {c : UInt8}
    (hc : c ∈ collapse prevSpace value) : c ∈ value := by
  induction value generalizing prevSpace with
  | nil => exact hc
  | cons b value ih =>
    rw [collapse] at hc
    split at hc
    next =>
      split at hc
      next => exact List.mem_cons_of_mem b (ih hc)
      next =>
        rcases List.mem_cons.mp hc with rfl | hc
        · exact List.mem_cons_self
        · exact List.mem_cons_of_mem b (ih hc)
    next =>
      rcases List.mem_cons.mp hc with rfl | hc
      · exact List.mem_cons_self
      · exact List.mem_cons_of_mem b (ih hc)

theorem mem_normalizeHeaderValue {value : Bytes} {c : UInt8}
    (hc : c ∈ normalizeHeaderValue value) : c ∈ value := by
  have htrim := mem_collapse hc
  rw [trim, List.mem_reverse] at htrim
  have hreverse := List.dropWhile_subset _ htrim
  rw [List.mem_reverse] at hreverse
  exact List.dropWhile_subset _ hreverse

theorem mem_toLower {name : Bytes} (hname : 10 ∉ name) : 10 ∉ Bytes.toLower name := by
  intro hmem
  obtain ⟨c, hc, heq⟩ := List.mem_map.mp hmem
  have hlower : c = 10 := by
    rw [Bytes.lower] at heq
    split at heq
    next hupper =>
      -- No capital letter is thirty-two below a line feed.
      have hle : c.toNat ≤ 90 :=
        UInt8.le_iff_toNat_le.mp (of_decide_eq_true (Bool.and_eq_true_iff.mp hupper).2)
      have hsum := congrArg UInt8.toNat heq
      rw [UInt8.toNat_add] at hsum
      change (c.toNat + 32) % 256 = 10 at hsum
      omega
    next => exact heq
  rw [hlower] at hc
  exact hname hc

theorem canonicalRequest_lines (method uri query : Bytes) (headers : List Bytes)
    (names hash : Bytes) :
    (ascii "\n").intercalate [method, uri, query, headers.flatMap fun line => line ++ ascii "\n",
        names, hash] =
      [10].intercalate ([method, uri, query] ++ (headers ++ [[], names, hash])) := by
  have hnewline : ascii "\n" = [10] := rfl
  have hrest : headers ++ [[], names, hash] ≠ [] := by simp
  have hlines := @Foundation.flatMap_append_intercalate _ (10 : UInt8) headers [[], names, hash]
    (List.cons_ne_nil _ _)
  have hright : [10].intercalate (method :: uri :: query :: (headers ++ [[], names, hash])) =
      method ++ [10] ++ (uri ++ [10] ++
        (query ++ [10] ++ [10].intercalate (headers ++ [[], names, hash]))) := by
    rw [List.intercalate_cons_cons, List.intercalate_cons_cons,
      List.intercalate_cons_of_ne_nil hrest]
  rw [hnewline, List.cons_append, List.cons_append, List.cons_append, List.nil_append, hright,
    ← hlines]
  simp

theorem canonicalRequest_injOn {method uri query names hash : Bytes} {headers : List Bytes}
    {method' uri' query' names' hash' : Bytes} {headers' : List Bytes}
    (hlines : ∀ line ∈ [method, uri, query] ++ (headers ++ [[], names, hash]), 10 ∉ line)
    (hlines' : ∀ line ∈ [method', uri', query'] ++ (headers' ++ [[], names', hash']), 10 ∉ line)
    (heq : (ascii "\n").intercalate [method, uri, query,
        headers.flatMap fun line => line ++ ascii "\n", names, hash] =
      (ascii "\n").intercalate [method', uri', query',
        headers'.flatMap fun line => line ++ ascii "\n", names', hash']) :
    method = method' ∧ uri = uri' ∧ query = query' ∧ headers = headers' ∧ names = names' ∧
      hash = hash' := by
  rw [canonicalRequest_lines, canonicalRequest_lines] at heq
  have hparts := Foundation.intercalate_injOn hlines hlines' (by simp) (by simp) heq
  simp only [List.cons_append, List.nil_append, List.cons.injEq] at hparts
  obtain ⟨hmethod, huri, hquery, hrest⟩ := hparts
  obtain ⟨hheaders, hlast⟩ := List.append_inj' hrest rfl
  simp only [List.cons.injEq, and_true, true_and] at hlast
  exact ⟨hmethod, huri, hquery, hheaders, hlast⟩

end Lines

section Captures

theorem mem_of_after {expected text rest : Bytes} (hafter : after expected text = some rest) :
    rest ⊆ text := by
  unfold after at hafter
  split at hafter
  next =>
    cases hafter
    exact List.drop_subset _ _
  next => cases hafter

theorem mem_of_afterComma {keyword text rest : Bytes}
    (hafter : afterComma keyword text = some rest) : rest ⊆ text := by
  unfold afterComma at hafter
  cases hblank : after (ascii ", " ++ keyword) text with
  | some blank =>
    rw [hblank] at hafter
    cases hafter
    exact mem_of_after hblank
  | none =>
    rw [hblank] at hafter
    exact mem_of_after hafter

theorem mem_of_scopePart {kind : UInt8 → Bool} {text part rest : Bytes}
    (hpart : scopePart kind text = some (part, rest)) : rest ⊆ text := by
  unfold scopePart at hpart
  split at hpart
  next after hdrop =>
    split at hpart
    next => cases hpart
    next =>
      cases hpart
      have htail : rest ⊆ text.dropWhile kind := by
        rw [hdrop]
        exact List.subset_cons_self 47 rest
      exact List.Subset.trans htail (List.dropWhile_subset _)
  next => cases hpart

theorem mem_of_splitSignature {text signedHeaders signature : Bytes}
    (hsplit : splitSignature text = some (signedHeaders, signature)) : signedHeaders ⊆ text := by
  induction text generalizing signedHeaders signature with
  | nil => cases hsplit
  | cons c text ih =>
    rw [splitSignature] at hsplit
    split at hsplit
    next front back hback =>
      cases hsplit
      exact List.cons_subset_cons c (ih hback)
    next =>
      obtain ⟨last, -, heq⟩ := Option.map_eq_some_iff.mp hsplit
      cases heq
      exact List.nil_subset _

theorem mem_of_matchCredential {text : Bytes} {credential : Credential}
    (hmatch : matchCredential text = some credential) : credential.signedHeaders ⊆ text := by
  simp only [matchCredential, Option.bind_eq_bind, Option.bind_eq_some_iff, Option.pure_def] at hmatch
  obtain ⟨⟨key, text₁⟩, hkey, ⟨dateTime, text₂⟩, hdate, hmatch⟩ := hmatch
  split at hmatch
  next => cases hmatch
  next =>
    simp only [Option.bind_eq_some_iff] at hmatch
    obtain ⟨⟨region, text₃⟩, hregion, ⟨module, text₄⟩, hmodule, text₅, hversion, text₆, hnames,
      ⟨signedHeaders, signature⟩, hsplit, heq⟩ := hmatch
    cases heq
    apply List.Subset.trans (mem_of_splitSignature hsplit)
    apply List.Subset.trans (mem_of_afterComma hnames)
    apply List.Subset.trans (mem_of_after hversion)
    apply List.Subset.trans (mem_of_scopePart hmodule)
    apply List.Subset.trans (mem_of_scopePart hregion)
    exact List.Subset.trans (mem_of_scopePart hdate) (mem_of_scopePart hkey)

theorem mem_of_searchCredential {text : Bytes} {credential : Credential}
    (hsearch : searchCredential text = some credential) : credential.signedHeaders ⊆ text := by
  induction text with
  | nil => cases hsearch
  | cons c text ih =>
    rw [searchCredential] at hsearch
    cases hfound : (after (ascii "Credential=") (c :: text)).bind matchCredential with
    | some found =>
      rw [hfound] at hsearch
      cases hsearch
      obtain ⟨rest, hafter, hmatch⟩ := Option.bind_eq_some_iff.mp hfound
      exact List.Subset.trans (mem_of_matchCredential hmatch) (mem_of_after hafter)
    | none =>
      rw [hfound] at hsearch
      exact List.Subset.trans (ih hsearch) (List.subset_cons_self c text)

end Captures

section Verification

variable {digests : Digests} {signing : Signing} {request original : Request}
  {isoDateString secretAccessKey : Bytes}

def canonicalText (digests : Digests) (request : Request) (keys : AuthorizationHeaderKeys)
    (query : Bytes) : Bytes :=
  (ascii "\n").intercalate [request.method.toBytes, canonicalUri request.target, query,
    getCanonicalHeaders request keys, keys.signedHeaders, payloadHash digests request]

theorem canonicalText_of_verifySignature (hinjective : digests.Injective)
    (hverify : verifySignature digests isoDateString request secretAccessKey = some true)
    (hsignature : (AwsUtils.getAuthorizationKeys isoDateString request secretAccessKey).signature =
      signing.signature digests secretAccessKey original) :
    ∃ query, getCanonicalQueryParameters request.target = some query ∧ canonicalText digests request
          (AwsUtils.getAuthorizationKeys isoDateString request secretAccessKey) query =
        signing.canonicalRequest original := by
  rw [verifySignature, getCanonicalRequest, Option.map_map, Option.map_eq_some_iff] at hverify
  obtain ⟨query, hquery, hequals⟩ := hverify
  refine ⟨query, hquery, ?_⟩
  generalize AwsUtils.getAuthorizationKeys isoDateString request secretAccessKey = keys
    at hsignature hequals ⊢
  change equals (getSignature digests keys (getStringToSign digests
    (canonicalText digests request keys query) keys)) keys.signature = true at hequals
  simp only [equals, Bool.and_eq_true, decide_eq_true_eq] at hequals
  have hdigests := hequals.2.trans hsignature
  rw [getSignature, Signing.signature] at hdigests
  have hmac := (hinjective.hmacSha256 (Crypto.hexEncode_injective hdigests)).2
  rw [getStringToSign, Signing.stringToSign] at hmac
  simp only [List.intercalate_cons_cons, List.intercalate_singleton] at hmac
  -- the digest is what comes after the last line end
  have hlast : ∀ first second third digest : Bytes,
      first ++ ascii "\n" ++ (second ++ ascii "\n" ++ (third ++ ascii "\n" ++ digest)) =
        first ++ ascii "\n" ++ (second ++ ascii "\n" ++ third) ++ 10 :: digest := by
    intro first second third digest
    have hnewline : ascii "\n" = [10] := rfl
    rw [hnewline]
    simp
  rw [hlast, hlast] at hmac
  have hsha := (Foundation.last_part (Crypto.newline_notMem_hexEncode _)
    (Crypto.newline_notMem_hexEncode _) hmac).2
  exact hinjective.sha256 (Crypto.hexEncode_injective hsha)

theorem mem_fields_of_find {name value : Bytes} (hfind : request.find name = some value) :
    ∃ field ∈ request.fields, field.2 = value := by
  obtain ⟨field, hfield, rfl⟩ := Option.map_eq_some_iff.mp hfind
  exact ⟨field, List.mem_of_find?_eq_some hfield, rfl⟩

theorem newline_notMem_get (hrequest : request.WellFormed) (name : Bytes) :
    10 ∉ request.get name := by
  rw [Request.get]
  cases hfind : request.find name with
  | none => exact List.not_mem_nil
  | some value =>
    obtain ⟨field, hfield, rfl⟩ := mem_fields_of_find hfind
    exact (hrequest.fields field hfield).2

theorem getHeaderValue_eq_get (name : Bytes) : getHeaderValue request name = request.get name := by
  simp [getHeaderValue]

/-- The lines that `GetCanonicalHeaders` writes: names without a field are left out. -/
def headerLines (request : Request) (keys : AuthorizationHeaderKeys) : List Bytes :=
  ((Bytes.split keys.signedHeaders 59).filter (hasHeader request)).map fun name =>
    Signing.headerLine name (normalizeHeaderValue (getHeaderValue request name))

theorem getCanonicalHeaders_eq (request : Request) (keys : AuthorizationHeaderKeys) :
    getCanonicalHeaders request keys =
      (headerLines request keys).flatMap fun line => line ++ ascii "\n" := by
  rw [getCanonicalHeaders, headerLines]
  induction Bytes.split keys.signedHeaders 59 with
  | nil => rfl
  | cons name names ih =>
    rw [List.flatMap_cons, ih]
    cases hpresent : hasHeader request name with
    | true =>
      rw [if_pos rfl, List.filter_cons_of_pos hpresent, List.map_cons, List.flatMap_cons]
      rfl
    | false =>
      rw [if_neg Bool.false_ne_true, List.filter_cons_of_neg (by rw [hpresent]; decide)]
      rfl

def writeParameter (parameter : Bytes × Bytes) : Bytes :=
  sigV4Encode parameter.1 ++ ascii "=" ++ sigV4Encode parameter.2

theorem writeParameter_injective : Function.Injective writeParameter := by
  intro parameter other heq
  simp only [writeParameter, List.append_assoc] at heq
  change sigV4Encode parameter.1 ++ 61 :: sigV4Encode parameter.2 =
    sigV4Encode other.1 ++ 61 :: sigV4Encode other.2 at heq
  obtain ⟨hname, -, hvalue⟩ := (List.append_cons_inj_of_notMem
    (separators_notMem_sigV4Encode _).2.2 (separators_notMem_sigV4Encode _).2.2).mp heq
  exact Prod.ext (sigV4Encode_injective hname) (sigV4Encode_injective hvalue)

theorem separators_notMem_writeParameter (parameter : Bytes × Bytes) :
    10 ∉ writeParameter parameter ∧ 38 ∉ writeParameter parameter := by
  have hname := separators_notMem_sigV4Encode parameter.1
  have hvalue := separators_notMem_sigV4Encode parameter.2
  simp only [writeParameter, List.mem_append, not_or]
  exact ⟨⟨⟨hname.1, by decide⟩, hvalue.1⟩, ⟨⟨hname.2.1, by decide⟩, hvalue.2.1⟩⟩

theorem newline_notMem_intercalate {separator : Bytes} (hseparator : 10 ∉ separator)
    {parts : List Bytes} (hparts : ∀ part ∈ parts, 10 ∉ part) :
    10 ∉ separator.intercalate parts := by
  induction parts with
  | nil => exact List.not_mem_nil
  | cons part parts ih =>
    rw [List.forall_mem_cons] at hparts
    cases parts with
    | nil =>
      rw [List.intercalate_singleton]
      exact hparts.1
    | cons other parts =>
      rw [List.intercalate_cons_cons, List.mem_append, List.mem_append, not_or, not_or]
      exact ⟨⟨hparts.1, hseparator⟩, ih hparts.2⟩

theorem canonicalQuery_injective {parameters others : List (Bytes × Bytes)}
    (heq : (ascii "&").intercalate (parameters.map writeParameter) =
      (ascii "&").intercalate (others.map writeParameter)) : parameters = others := by
  have hnonempty : ∀ (parameter : Bytes × Bytes) (rest : List (Bytes × Bytes)),
      (ascii "&").intercalate ((parameter :: rest).map writeParameter) ≠ [] := by
    intro parameter rest hnil
    have hmem : 61 ∈ writeParameter parameter := by
      simp [writeParameter, ascii]
    rw [List.map_cons] at hnil
    cases rest with
    | nil =>
      rw [List.map_nil, List.intercalate_singleton] at hnil
      rw [hnil] at hmem
      cases hmem
    | cons other rest =>
      rw [List.map_cons, List.intercalate_cons_cons, List.append_assoc] at hnil
      rw [(List.append_eq_nil_iff.mp hnil).1] at hmem
      cases hmem
  have hparts : ∀ (list : List (Bytes × Bytes)), ∀ part ∈ list.map writeParameter, 38 ∉ part := by
    intro list part hpart
    obtain ⟨parameter, -, rfl⟩ := List.mem_map.mp hpart
    exact (separators_notMem_writeParameter parameter).2
  cases parameters with
  | nil =>
    cases others with
    | nil => rfl
    | cons other others => exact absurd heq.symm (hnonempty other others)
  | cons parameter parameters =>
    cases others with
    | nil => exact absurd heq (hnonempty parameter parameters)
    | cons other others =>
      have hwritten := Foundation.intercalate_injOn (hparts (parameter :: parameters))
        (hparts (other :: others)) (by simp) (by simp) heq
      exact List.map_injective_iff.mpr writeParameter_injective hwritten

theorem encodePair_injective : Function.Injective Signing.encodePair := by
  intro parameter other heq
  obtain ⟨hname, hvalue⟩ := Prod.mk.inj heq
  exact Prod.ext (sigV4Encode_injective hname) (sigV4Encode_injective hvalue)

theorem exists_canonicalQuery (signing : Signing) :
    ∃ sorted : List (Bytes × Bytes), sorted.Perm signing.parameters ∧
      signing.canonicalQuery = (ascii "&").intercalate (sorted.map writeParameter) := by
  have hperm := List.mergeSort_perm (signing.parameters.map Signing.encodePair) Signing.goesBefore
  have hrange : ∀ pair ∈ (signing.parameters.map Signing.encodePair).mergeSort Signing.goesBefore,
      pair ∈ Set.range Signing.encodePair := by
    intro pair hpair
    obtain ⟨parameter, -, heq⟩ := List.mem_map.mp (hperm.subset hpair)
    exact ⟨parameter, heq⟩
  obtain ⟨sorted, hsorted⟩ := (Set.range_list_map Signing.encodePair).ge hrange
  refine ⟨sorted, ?_, ?_⟩
  · rw [← List.map_perm_map_iff encodePair_injective, hsorted]
    exact hperm
  · rw [Signing.canonicalQuery, ← hsorted, List.map_map]
    rfl

/-- What the accepted request and the signed one have in common. -/
structure SharesCanonical (digests : Digests) (signing : Signing) (request original : Request)
    (signedHeaders : Bytes) : Prop where
  method : request.methodString = original.methodString
  path : path request.target = path original.target
  parameters : ∃ read, getQueryParameters request.target = some read ∧ read.Perm signing.parameters
  names : Bytes.split signedHeaders 59 = signing.signedHeaders
  headers : ∀ name ∈ signing.signedHeaders, hasHeader request name = true ∧
    normalizeHeaderValue (getHeaderValue request name) = original.headerValue name
  payload : payloadHash digests request = signing.payloadHash

theorem newline_notMem_payloadHash (hrequest : request.WellFormed) :
    10 ∉ payloadHash digests request := by
  unfold payloadHash
  split
  next =>
    rw [getHeaderValue_eq_get]
    exact newline_notMem_get hrequest _
  next => exact Crypto.newline_notMem_hexEncode _

theorem newline_notMem_headerLine {name value : Bytes} (hname : 10 ∉ name) (hvalue : 10 ∉ value) :
    10 ∉ Signing.headerLine name value := by
  rw [Signing.headerLine, List.mem_append, List.mem_append, not_or, not_or]
  exact ⟨⟨mem_toLower hname, by decide⟩, hvalue⟩

theorem newline_notMem_headerValue (hrequest : request.WellFormed) (name : Bytes) :
    10 ∉ request.headerValue name := by
  apply newline_notMem_intercalate (by decide)
  intro part hpart
  obtain ⟨value, hvalue, rfl⟩ := List.mem_map.mp hpart
  obtain ⟨field, hfield, rfl⟩ := List.mem_map.mp hvalue
  intro hmem
  exact (hrequest.fields field (List.mem_of_mem_filter hfield)).2 (mem_normalizeHeaderValue hmem)

theorem newline_notMem_signedHeaders (hrequest : request.WellFormed) :
    10 ∉ (AwsUtils.getAuthorizationKeys isoDateString request secretAccessKey).signedHeaders := by
  change 10 ∉ ((searchCredential (request.get (ascii "Authorization"))).getD
    ⟨[], [], [], [], [], []⟩).signedHeaders
  cases hsearch : searchCredential (request.get (ascii "Authorization")) with
  | none => exact List.not_mem_nil
  | some credential =>
    intro hmem
    exact newline_notMem_get hrequest _ (mem_of_searchCredential hsearch hmem)

theorem newline_notMem_lines {method uri query names hash : Bytes} {headers : List Bytes}
    (hmethod : 10 ∉ method) (huri : 10 ∉ uri) (hquery : 10 ∉ query)
    (hheaders : ∀ line ∈ headers, 10 ∉ line) (hnames : 10 ∉ names) (hhash : 10 ∉ hash) :
    ∀ line ∈ [method, uri, query] ++ (headers ++ [[], names, hash]), 10 ∉ line := by
  intro line hline
  simp only [List.mem_append, List.mem_cons, List.not_mem_nil, or_false] at hline
  rcases hline with (rfl | rfl | rfl) | hline | rfl | rfl | rfl
  · exact hmethod
  · exact huri
  · exact hquery
  · exact hheaders line hline
  · exact List.not_mem_nil
  · exact hnames
  · exact hhash

theorem notMem_markers {hash : Bytes} (hhash : hash ∈ markers) : 10 ∉ hash := by
  revert hash
  decide

theorem sharesCanonical (hinjective : digests.Injective) (hrequest : request.WellFormed)
    (horiginal : original.WellFormed) (hsigns : signing.Signs digests original)
    (hverify : verifySignature digests isoDateString request secretAccessKey = some true)
    (hsignature : (AwsUtils.getAuthorizationKeys isoDateString request secretAccessKey).signature =
      signing.signature digests secretAccessKey original) :
    SharesCanonical digests signing request original
      (AwsUtils.getAuthorizationKeys isoDateString request secretAccessKey).signedHeaders := by
  obtain ⟨query, hquery, htext⟩ := canonicalText_of_verifySignature hinjective hverify hsignature
  have hsignedHeaders := @newline_notMem_signedHeaders request isoDateString secretAccessKey hrequest
  generalize AwsUtils.getAuthorizationKeys isoDateString request secretAccessKey = keys
    at htext hsignedHeaders ⊢
  obtain ⟨read, hread, rfl⟩ := Option.map_eq_some_iff.mp hquery
  obtain ⟨sorted, hsorted, hcanonical⟩ := exists_canonicalQuery signing
  have hwritten : ∀ parameters : List (Bytes × Bytes),
      10 ∉ (ascii "&").intercalate (parameters.map writeParameter) := by
    intro parameters
    apply newline_notMem_intercalate (by decide)
    intro part hpart
    obtain ⟨parameter, -, rfl⟩ := List.mem_map.mp hpart
    exact (separators_notMem_writeParameter parameter).1
  have hlines : ∀ line ∈ headerLines request keys, 10 ∉ line := by
    intro line hline
    obtain ⟨name, hname, rfl⟩ := List.mem_map.mp hline
    apply newline_notMem_headerLine
    · intro hmem
      exact hsignedHeaders (Foundation.mem_of_mem_splitOn (List.mem_of_mem_filter hname) hmem)
    · intro hmem
      have hvalue := mem_normalizeHeaderValue hmem
      rw [getHeaderValue_eq_get] at hvalue
      exact newline_notMem_get hrequest name hvalue
  have hlines' : ∀ line ∈ signing.signedHeaders.map fun name =>
      Signing.headerLine name (original.headerValue name), 10 ∉ line := by
    intro line hline
    obtain ⟨name, hname, rfl⟩ := List.mem_map.mp hline
    exact newline_notMem_headerLine (hsigns.names name hname).2
      (newline_notMem_headerValue horiginal name)
  have hnames : 10 ∉ (ascii ";").intercalate signing.signedHeaders :=
    newline_notMem_intercalate (by decide) fun name hname => (hsigns.names name hname).2
  have hhash : 10 ∉ signing.payloadHash := by
    rcases hsigns.payload with heq | hmarker
    · rw [heq]
      exact Crypto.newline_notMem_hexEncode _
    · exact notMem_markers hmarker
  have hheaders : signing.canonicalHeaders original =
      (signing.signedHeaders.map fun name =>
        Signing.headerLine name (original.headerValue name)).flatMap
          fun line => line ++ ascii "\n" := by
    rw [Signing.canonicalHeaders, List.flatMap_map]
  rw [canonicalText, Signing.canonicalRequest, getCanonicalHeaders_eq, hheaders, hcanonical,
    canonicalUri_eq hrequest.absolute] at htext
  obtain ⟨hmethod, huri, hqueries, hsame, hsplit, hpayload⟩ := canonicalRequest_injOn
    (newline_notMem_lines (newline_notMem_toBytes hrequest) (newline_notMem_awsUrlEncode _)
      (hwritten read) hlines hsignedHeaders (newline_notMem_payloadHash hrequest))
    (newline_notMem_lines horiginal.method.2 (newline_notMem_awsUrlEncode _) (hwritten sorted)
      hlines' hnames hhash) htext
  have hparts : Bytes.split keys.signedHeaders 59 = signing.signedHeaders := by
    rw [hsplit]
    exact List.splitOn_intercalate 59 (fun name hname => (hsigns.names name hname).1)
      hsigns.signedHeaders
  rw [headerLines, hparts] at hsame
  have hpresent : ∀ name ∈ signing.signedHeaders, hasHeader request name = true := by
    have hlength := congrArg List.length hsame
    rw [List.length_map, List.length_map] at hlength
    exact List.length_filter_eq_length_iff.mp hlength
  rw [List.filter_eq_self.mpr hpresent] at hsame
  refine ⟨?_, awsUrlEncode_injective huri, ⟨read, hread, ?_⟩, hparts, ?_, hpayload⟩
  · rcases @toBytes_stringToVerb request.methodString with heq | heq
    · rwa [Request.method, heq] at hmethod
    · -- no method is written as an unknown one is
      rw [Request.method, heq] at hmethod
      have hsign : 60 ∈ original.methodString := by
        rw [← hmethod]
        decide
      exact absurd hsign horiginal.method.1
  · rw [canonicalQuery_injective hqueries]
    exact hsorted
  · intro name hname
    refine ⟨hpresent name hname, ?_⟩
    have hline := List.map_inj_left.mp hsame name hname
    exact List.append_cancel_left hline

/-- Where a canonical request says all of a request. Its query is plain, or is read
right by chance; every signed header is one field; and a payload hash that it brings
is the one of its body or leaves the body out. -/
structure Http.Request.IsCovered (digests : Digests) (request : Request) (signedHeaders : Bytes) :
    Prop where
  query : request.IsPlain ∨ ¬request.IsPlain ∧ request.ReadsQuery
  headers : ∀ name ∈ Bytes.split signedHeaders 59, (request.values name).length ≤ 1
  payload : ∀ hash, request.find (ascii "x-amz-content-sha256") = some hash →
    hash = getHashedPayload digests request.body ∨ hash ∈ markers

theorem isPlain_or_iff (request : Request) :
    (request.IsPlain ∨ ¬request.IsPlain ∧ request.ReadsQuery) ↔ request.ReadsQuery := by
  constructor
  · rintro (hplain | ⟨-, hreads⟩)
    · exact readsQuery_of_isPlain hplain
    · exact hreads
  · intro hreads
    by_cases hplain : request.IsPlain
    · exact .inl hplain
    · exact .inr ⟨hplain, hreads⟩

theorem find_eq_head? (request : Request) (name : Bytes) :
    request.find name = (request.values name).head? := by
  rw [Request.find, Request.values, List.head?_map, List.head?_filter]

theorem headerValue_eq_iff {name : Bytes} (hpresent : hasHeader request name = true) :
    request.headerValue name = normalizeHeaderValue (getHeaderValue request name) ↔
      (request.values name).length ≤ 1 := by
  rw [hasHeader, find_eq_head?] at hpresent
  rw [getHeaderValue_eq_get, Request.get, find_eq_head?, Request.headerValue]
  match hvalues : request.values name with
  | [] =>
    rw [hvalues] at hpresent
    cases hpresent
  | [value] => simp
  | first :: second :: rest =>
    constructor
    · intro heq
      have hlength := congrArg List.length heq
      rw [List.map_cons, List.map_cons, List.intercalate_cons_cons, List.length_append,
        List.length_append] at hlength
      change _ + 1 + _ = (normalizeHeaderValue first).length at hlength
      omega
    · intro hle
      simp at hle

end Verification

section Samples

def readableDigests : Digests where
  sha256 := id
  hmacSha256 key message := key.flatMap (fun b => [1, b]) ++ 0 :: message

theorem injective_readableDigests : readableDigests.Injective where
  sha256 := Function.injective_id
  hmacSha256 := by
    intro key message key' message' heq
    simp only [readableDigests] at heq
    induction key generalizing key' with
    | nil =>
      cases key' with
      | nil => exact ⟨rfl, List.tail_eq_of_cons_eq heq⟩
      | cons b key' => exact absurd (List.head_eq_of_cons_eq heq) (by decide)
    | cons b key ih =>
      cases key' with
      | nil => exact absurd (List.head_eq_of_cons_eq heq) (by decide)
      | cons b' key' =>
        simp only [List.flatMap_cons, List.cons_append, List.nil_append, List.cons.injEq,
          true_and] at heq
        obtain ⟨rfl, hrest⟩ := heq
        obtain ⟨rfl, hmessage⟩ := ih hrest
        exact ⟨rfl, hmessage⟩

def listRequest (target : String) (fields : List (Bytes × Bytes)) : Request :=
  { methodString := ascii "GET", target := ascii target,
    fields := fields ++ [(ascii "Host", ascii "h"), (ascii "X-Amz-Date", ascii "d")] }

def listSigning : Signing where
  date := ascii "20240101"
  region := ascii "r"
  service := ascii "s"
  isoDate := ascii "d"
  signedHeaders := [ascii "host"]
  payloadHash := getHashedPayload readableDigests []
  parameters := [(ascii "a", ascii "2")]

def listAuthorization : Bytes × Bytes :=
  (ascii "Authorization",
    ascii "AWS4-HMAC-SHA256 Credential=k/20240101/r/s/aws4_request, SignedHeaders=host, Signature=" ++
      listSigning.signature readableDigests (ascii "k") (listRequest "/?a=2" []))

theorem wellFormed_listRequest : (listRequest "/?a=2" []).WellFormed where
  absolute := rfl
  method := by decide
  fields := by decide

theorem signs_listRequest : listSigning.Signs readableDigests (listRequest "/?a=2" []) where
  parameters := by decide +kernel
  signedHeaders := List.cons_ne_nil _ _
  names := by decide
  present := by decide
  payload := .inl rfl

end Samples

end AwsMock
