import AwsMock.Core.Escapes
import AwsMock.Gateway.Safety

/-! # The address of an object

A client names an object by the path of a target, by a host and a target, or by the
source of a copy. The host is read up to its first dot and the target of such a request
up to its second slash, while the source of a copy is read as `UrlDecode` does, and
from its first character on.
-/

namespace AwsMock.S3

open Http HttpUtils Gateway Bytes

section Source

def subStringUntil (string delimiter : Bytes) : Bytes := Bytes.before delimiter string

def subStringAfter (string delimiter : Bytes) : Bytes := (Bytes.after delimiter string).getD []

/-- The bucket, the key and the version of a copy source. A bad escape is an exception. -/
def getBucketKeyFromHeader (path : Bytes) : Option (Bytes × Bytes × Bytes) :=
  let sourcePath := subStringUntil path (ascii "?")
  let versionId :=
    if Bytes.contains path (ascii "?versionId=") then subStringAfter path (ascii "?versionId=")
    else []
  (urlDecode (subStringUntil sourcePath (ascii "/"))).bind fun bucket =>
    (urlDecode (subStringAfter sourcePath (ascii "/"))).map fun key => (bucket, key, versionId)

end Source

section Names

/-- Buckets have names of letters, digits, dots, hyphens and underscores. -/
def IsBucketName (bucket : Bytes) : Prop :=
  bucket ≠ [] ∧ ∀ c ∈ bucket, isAlnum c = true ∨ c ∈ ascii ".-_"

instance (bucket : Bytes) : Decidable (IsBucketName bucket) := inferInstanceAs (Decidable (_ ∧ _))

def IsQuery (query : Bytes) : Prop := query = [] ∨ query.head? = some 63

/-- The ways in which a client names a version of an object. Each of them may escape
other characters of the key. -/
structure Naming (bucket key versionId : Bytes) where
  pathRequest : Request
  hostRequest : Request
  source : Bytes
  pathKey : Bytes
  hostKey : Bytes
  sourceKey : Bytes
  leading : Bytes
  isBucketName : IsBucketName bucket
  escapesPath : Escapes pathKey key
  escapesHost : Escapes hostKey key
  escapesSource : Escapes sourceKey key
  isPlainHost : isS3HostStyle pathRequest = false
  pathTarget : ∃ query, IsQuery query ∧ pathRequest.target = 47 :: bucket ++ 47 :: pathKey ++ query
  hostName : ∃ domain, hostRequest.find (ascii "Host") = some (bucket ++ ascii ".s3." ++ domain)
  hostTarget : ∃ query, IsQuery query ∧ hostRequest.target = 47 :: hostKey ++ query
  isLeading : leading = [] ∨ leading = [47]
  sourceText : ∃ suffix, (suffix = [] ∧ versionId = [] ∨ suffix = ascii "?versionId=" ++ versionId) ∧
    source = leading ++ bucket ++ 47 :: sourceKey ++ suffix

variable {bucket key versionId : Bytes}

structure Naming.IsResolved (urls : UrlLibrary) (naming : Naming bucket key versionId) : Prop where
  path : getS3BucketName urls naming.pathRequest = .ok bucket ∧
    getS3ObjectKey urls naming.pathRequest = .ok key
  host : getS3BucketName urls naming.hostRequest = .ok bucket ∧
    getS3ObjectKey urls naming.hostRequest = .ok key
  source : getBucketKeyFromHeader naming.source = some (bucket, key, versionId)

end Names

section Cuts

variable {c : UInt8} {front back marker text : Bytes}

theorem startsWith_cons_ne {d : UInt8} (hd : d ≠ c) (rest marker : Bytes) :
    startsWith (d :: rest) (c :: marker) = false := by
  unfold startsWith
  rw [List.isPrefixOf_cons_cons, beq_eq_false_iff_ne.mpr hd.symm]
  rfl

theorem before_of_notMem (htext : c ∉ text) : before (c :: marker) text = text := by
  induction text with
  | nil => rfl
  | cons d text ih =>
    rw [List.mem_cons, not_or] at htext
    rw [before, startsWith_cons_ne (fun h => htext.1 h.symm), if_neg Bool.false_ne_true, ih htext.2]

theorem startsWith_append (text rest : Bytes) : startsWith (text ++ rest) text = true :=
  List.isPrefixOf_iff_prefix.mpr (List.prefix_append text rest)

theorem before_append (hfront : c ∉ front) :
    before (c :: marker) (front ++ (c :: marker ++ back)) = front := by
  induction front with
  | nil =>
    rw [List.nil_append, List.cons_append, before, ← List.cons_append, startsWith_append,
      if_pos rfl]
  | cons d front ih =>
    rw [List.mem_cons, not_or] at hfront
    rw [List.cons_append, before, startsWith_cons_ne (fun h => hfront.1 h.symm),
      if_neg Bool.false_ne_true, ih hfront.2]

theorem after_append (hfront : c ∉ front) :
    after (c :: marker) (front ++ (c :: marker ++ back)) = some back := by
  induction front with
  | nil =>
    rw [List.nil_append, List.cons_append, after, ← List.cons_append, startsWith_append,
      if_pos rfl, List.drop_left]
  | cons d front ih =>
    rw [List.mem_cons, not_or] at hfront
    rw [List.cons_append, after, startsWith_cons_ne (fun h => hfront.1 h.symm),
      if_neg Bool.false_ne_true, ih hfront.2]

theorem takeWhile_append_query {query : Bytes} (hfront : 63 ∉ front) (hquery : IsQuery query) :
    (front ++ query).takeWhile (· ≠ 63) = front := by
  have hfree : ∀ d ∈ front, decide (d ≠ 63) = true := by
    intro d hd
    rw [decide_eq_true_iff]
    rintro rfl
    exact hfront hd
  rw [List.takeWhile_append_of_pos hfree]
  rcases hquery with rfl | hhead
  · exact List.append_nil _
  · cases query with
    | nil => cases hhead
    | cons d query =>
      have hd : d = 63 := Option.some.inj hhead
      rw [List.takeWhile_cons_of_neg (by rw [hd]; decide), List.append_nil]

theorem originSegments_append {path query : Bytes} (hpath : 63 ∉ path) (hquery : IsQuery query) :
    originSegments (47 :: path ++ query) =
      if path = [] then some [] else (split path 47).mapM percentDecode := by
  have hhead : (47 :: path ++ query).head? = some 47 := rfl
  have hfree : 63 ∉ 47 :: path := by
    rw [List.mem_cons, not_or]
    exact ⟨by decide, hpath⟩
  unfold originSegments
  rw [if_pos hhead, takeWhile_append_query hfree hquery]
  rfl

end Cuts

section Resolution

variable {urls : UrlLibrary} {bucket key versionId : Bytes}

theorem IsBucketName.isPathCharacter (hbucket : IsBucketName bucket) {c : UInt8} (hc : c ∈ bucket) :
    isPathCharacter c = true := by
  unfold Bytes.isPathCharacter
  rcases hbucket.2 c hc with halnum | hmark
  · rw [halnum, Bool.true_or]
  · have hmarks : ascii ".-_" ⊆ ascii "-._~!$&'()*+,;=:@/" := by decide
    rw [decide_eq_true (hmarks hmark), Bool.or_true]

theorem IsBucketName.notMem (hbucket : IsBucketName bucket) {c : UInt8} (halnum : isAlnum c = false)
    (hmark : c ∉ ascii ".-_") : c ∉ bucket := by
  intro hc
  rcases hbucket.2 c hc with halnum' | hmark'
  · rw [halnum] at halnum'
    cases halnum'
  · exact hmark hmark'

theorem IsBucketName.escapes (hbucket : IsBucketName bucket) : Escapes bucket bucket := by
  have hall : ∀ c ∈ bucket, Bytes.isPathCharacter c = true := fun c => hbucket.isPathCharacter
  clear hbucket
  induction bucket with
  | nil => exact .nil
  | cons c bucket ih =>
    rw [List.forall_mem_cons] at hall
    exact .plain hall.1 (ih hall.2)

variable (naming : Naming bucket key versionId)

theorem Naming.resolves_path
    (hurls : urls.parseOriginForm naming.pathRequest.target =
      originSegments naming.pathRequest.target) :
    getS3BucketName urls naming.pathRequest = .ok bucket ∧
      getS3ObjectKey urls naming.pathRequest = .ok key := by
  have hbucket := naming.isBucketName
  obtain ⟨query, hquery, htarget⟩ := naming.pathTarget
  obtain ⟨segments, hsegments, hkey, -⟩ := naming.escapesPath.segments
  have horigin : originSegments naming.pathRequest.target = some (bucket :: segments) := by
    have hfree : 63 ∉ bucket ++ 47 :: naming.pathKey := by
      rw [List.mem_append, List.mem_cons, not_or, not_or]
      exact ⟨hbucket.notMem (by decide) (by decide), by decide,
        naming.escapesPath.notMem (by decide) (by decide)⟩
    have hslash : 47 ∉ bucket := hbucket.notMem (by decide) (by decide)
    rw [htarget, List.cons_append, originSegments_append hfree hquery, if_neg (by simp),
      Bytes.split, List.splitOn_append_cons_self_of_not_mem hslash, List.mapM_cons,
      hbucket.escapes.percentDecode_eq]
    change ((Bytes.split naming.pathKey 47).mapM percentDecode).bind _ = _
    rw [hsegments]
    rfl
  rw [← hurls] at horigin
  have hparameters : getPathParameters urls naming.pathRequest.target = .ok (bucket :: segments) := by
    unfold getPathParameters
    rw [horigin]
  have hplain := naming.isPlainHost
  constructor
  · unfold getS3BucketName getPathParameter
    rw [hplain, hparameters]
    change (if bucket ≠ [] then Except.ok bucket else _) = _
    rw [if_pos hbucket.1]
  · unfold getS3ObjectKey
    rw [hplain, hparameters]
    exact congrArg Except.ok hkey.symm

theorem Naming.resolves_hostBucket :
    getS3BucketName urls naming.hostRequest = .ok bucket ↔ 46 ∉ bucket := by
  obtain ⟨domain, hhost⟩ := naming.hostName
  have hget : naming.hostRequest.get (ascii "Host") = bucket ++ ascii ".s3." ++ domain := by
    unfold Request.get
    rw [hhost]
    rfl
  have hstyle : isS3HostStyle naming.hostRequest = true := by
    unfold isS3HostStyle hasHeader Bytes.contains
    rw [hget, hhost]
    exact decide_eq_true ⟨bucket, domain, rfl⟩
  have hname : getS3BucketName urls naming.hostRequest =
      .ok ((bucket ++ 46 :: (ascii "s3." ++ domain)).takeWhile (· ≠ 46)) := by
    unfold getS3BucketName getS3HostStyleBucket
    rw [if_pos hstyle, hget, List.append_assoc]
    rfl
  rw [hname, Except.ok.injEq]
  constructor
  · intro heq hdot
    rw [← heq] at hdot
    have hne := List.mem_takeWhile_imp hdot
    exact of_decide_eq_true hne rfl
  · intro hdot
    have hfree : ∀ c ∈ bucket, decide (c ≠ 46) = true := by
      intro c hc
      rw [decide_eq_true_iff]
      rintro rfl
      exact hdot hc
    rw [List.takeWhile_append_of_pos hfree, List.takeWhile_cons_of_neg (by decide),
      List.append_nil]

theorem Naming.resolves_hostKey
    (hurls : urls.parseOriginForm naming.hostRequest.target =
      originSegments naming.hostRequest.target) :
    getS3ObjectKey urls naming.hostRequest = .ok key ↔ 47 ∉ naming.hostKey := by
  obtain ⟨query, hquery, htarget⟩ := naming.hostTarget
  obtain ⟨domain, hhost⟩ := naming.hostName
  have hstyle : isS3HostStyle naming.hostRequest = true := by
    unfold isS3HostStyle hasHeader Bytes.contains Request.get
    rw [hhost]
    exact decide_eq_true ⟨bucket, domain, rfl⟩
  have hfree : 63 ∉ naming.hostKey := naming.escapesHost.notMem (by decide) (by decide)
  have hkey : ∀ {segments}, originSegments naming.hostRequest.target = some segments →
      getS3ObjectKey urls naming.hostRequest = .ok (segments.getD 0 []) := by
    intro segments hsegments
    unfold getS3ObjectKey getPathParameter getPathParameters
    rw [if_pos hstyle, hurls, hsegments]
    rfl
  by_cases hempty : naming.hostKey = []
  · have hsegments : originSegments naming.hostRequest.target = some [] := by
      rw [htarget, originSegments_append hfree hquery, if_pos hempty]
    have hnil : key = [] := by
      have hescapes := naming.escapesHost
      rw [hempty] at hescapes
      cases hescapes
      rfl
    rw [hkey hsegments, hempty, Except.ok.injEq]
    exact iff_of_true hnil.symm List.not_mem_nil
  · obtain ⟨segments, hparts, hjoined, hlength⟩ := naming.escapesHost.segments
    have hsegments : originSegments naming.hostRequest.target = some segments := by
      rw [htarget, originSegments_append hfree hquery, if_neg hempty, hparts]
    rw [hkey hsegments, Except.ok.injEq]
    by_cases hslash : 47 ∈ naming.hostKey
    · -- the first segment is shorter than a key of several
      refine iff_of_false ?_ (not_not.mpr hslash)
      obtain ⟨front, back, hcut, hfront⟩ := List.eq_append_cons_of_mem hslash
      rw [hcut, Bytes.split, List.splitOn_append_cons_self_of_not_mem hfront, List.length_cons]
        at hlength
      have hback := List.length_pos_iff.mpr (List.splitOn_ne_nil 47 back)
      rcases segments with _ | ⟨first, _ | ⟨second, rest⟩⟩
      · cases hlength
      · rw [List.length_singleton] at hlength
        omega
      · intro hfirst
        have hsizes := congrArg List.length (hfirst.trans hjoined)
        rw [List.intercalate_cons_cons, List.length_append, List.length_append] at hsizes
        change first.length = _ at hsizes
        rw [List.length_singleton] at hsizes
        omega
    · rw [Bytes.split, List.splitOn_eq_singleton hslash, List.length_singleton] at hlength
      obtain ⟨segment, rfl⟩ := List.length_eq_one_iff.mp hlength
      rw [List.intercalate_singleton] at hjoined
      exact iff_of_true hjoined.symm hslash

/-- A copy source is read as it is meant when it has no slash in front and no `+`. -/
theorem Naming.resolves_source :
    getBucketKeyFromHeader naming.source = some (bucket, key, versionId) ↔
      naming.leading = [] ∧ 43 ∉ naming.sourceKey := by
  have hbucket := naming.isBucketName
  obtain ⟨suffix, hsuffix, hsource⟩ := naming.sourceText
  obtain ⟨result, hresult, hplus⟩ := naming.escapesSource.exists_urlDecode
  have hquestion : 63 ∉ naming.leading ++ bucket ++ 47 :: naming.sourceKey := by
    rw [List.mem_append, List.mem_append, List.mem_cons, not_or, not_or, not_or]
    refine ⟨⟨?_, hbucket.notMem (by decide) (by decide)⟩, by decide,
      naming.escapesSource.notMem (by decide) (by decide)⟩
    rcases naming.isLeading with hleading | hleading <;> rw [hleading] <;> decide
  have hpath : subStringUntil naming.source (ascii "?") =
      naming.leading ++ bucket ++ 47 :: naming.sourceKey := by
    unfold subStringUntil
    rcases hsuffix with ⟨rfl, -⟩ | rfl
    · rw [hsource, List.append_nil]
      exact before_of_notMem hquestion
    · rw [hsource]
      exact before_append hquestion
  have hversion : (if Bytes.contains naming.source (ascii "?versionId=") then
      subStringAfter naming.source (ascii "?versionId=") else []) = versionId := by
    unfold subStringAfter Bytes.contains
    rcases hsuffix with ⟨rfl, rfl⟩ | rfl
    · rw [hsource, List.append_nil, if_neg]
      rw [decide_eq_true_iff]
      intro hinfix
      have hsubset := hinfix.subset
      exact hquestion (hsubset (by decide))
    · rw [hsource, if_pos]
      · have hafter := @after_append 63 _ versionId (ascii "versionId=") hquestion
        exact congrArg (Option.getD · []) hafter
      · rw [decide_eq_true_iff]
        exact ⟨_, versionId, List.append_assoc _ _ _⟩
  unfold getBucketKeyFromHeader
  dsimp only
  rw [hpath, hversion]
  unfold subStringUntil subStringAfter
  rcases naming.isLeading with hleading | hleading
  · have hslash : 47 ∉ bucket := hbucket.notMem (by decide) (by decide)
    have hfirst : Bytes.before (ascii "/") (bucket ++ 47 :: naming.sourceKey) = bucket :=
      before_append hslash
    have hrest : Bytes.after (ascii "/") (bucket ++ 47 :: naming.sourceKey) =
        some naming.sourceKey := after_append hslash
    obtain ⟨name, hname, hnamePlus⟩ := hbucket.escapes.exists_urlDecode
    have hsame : name = bucket := hnamePlus.mpr (hbucket.notMem (by decide) (by decide))
    rw [hleading, List.nil_append, hfirst, hrest, hname, hsame]
    change (Option.map _ (urlDecode naming.sourceKey)) = _ ↔ _
    rw [hresult, ← hplus]
    simp
  · have hfirst : Bytes.before (ascii "/") ([47] ++ bucket ++ 47 :: naming.sourceKey) = [] :=
      rfl
    rw [hleading, hfirst]
    refine iff_of_false ?_ nofun
    intro heq
    obtain ⟨name, hname, hrest⟩ := Option.bind_eq_some_iff.mp heq
    cases hname
    obtain ⟨key', -, hkey⟩ := Option.map_eq_some_iff.mp hrest
    exact hbucket.1 (congrArg Prod.fst hkey).symm

/-- An object has one address exactly when its bucket has no dot, the target of its host
no further slash, and the source of a copy neither a slash in front nor a `+`. -/
theorem Naming.isResolved_iff (naming : Naming bucket key versionId)
    (hpath : urls.parseOriginForm naming.pathRequest.target =
      originSegments naming.pathRequest.target)
    (hhost : urls.parseOriginForm naming.hostRequest.target =
      originSegments naming.hostRequest.target) :
    naming.IsResolved urls ↔
      46 ∉ bucket ∧ 47 ∉ naming.hostKey ∧ naming.leading = [] ∧ 43 ∉ naming.sourceKey := by
  constructor
  · intro hresolved
    exact ⟨naming.resolves_hostBucket.mp hresolved.host.1,
      (naming.resolves_hostKey hhost).mp hresolved.host.2, naming.resolves_source.mp
        hresolved.source⟩
  · rintro ⟨hdot, hslash, hsource⟩
    exact ⟨naming.resolves_path hpath, ⟨naming.resolves_hostBucket.mpr hdot,
      (naming.resolves_hostKey hhost).mpr hslash⟩, naming.resolves_source.mpr hsource⟩

end Resolution

section Samples

def decodingLibrary : UrlLibrary where
  parseOriginForm := originSegments
  parseReference _ := some []

/-- The key `a/b` of the bucket `logs`, with nothing escaped. -/
def slashNaming : Naming (ascii "logs") (ascii "a/b") [] where
  pathRequest := {
    methodString := ascii "GET"
    target := ascii "/logs/a/b"
    fields := [(ascii "Host", ascii "localhost:4566")] }
  hostRequest := {
    methodString := ascii "GET"
    target := ascii "/a/b"
    fields := [(ascii "Host", ascii "logs.s3.eu-central-1.localhost")] }
  source := ascii "logs/a/b"
  pathKey := ascii "a/b"
  hostKey := ascii "a/b"
  sourceKey := ascii "a/b"
  leading := []
  isBucketName := by decide +kernel
  escapesPath := .plain (by decide +kernel) (.plain (by decide +kernel) (.plain (by decide +kernel) .nil))
  escapesHost := .plain (by decide +kernel) (.plain (by decide +kernel) (.plain (by decide +kernel) .nil))
  escapesSource := .plain (by decide +kernel) (.plain (by decide +kernel) (.plain (by decide +kernel) .nil))
  isPlainHost := by decide +kernel
  pathTarget := ⟨[], .inl rfl, by decide +kernel⟩
  hostName := ⟨ascii "eu-central-1.localhost", by decide +kernel⟩
  hostTarget := ⟨[], .inl rfl, by decide +kernel⟩
  isLeading := .inl rfl
  sourceText := ⟨[], .inl ⟨rfl, rfl⟩, by decide +kernel⟩

theorem isResolved_slash :
    slashNaming.IsResolved decodingLibrary ↔
      46 ∉ ascii "logs" ∧ 47 ∉ slashNaming.hostKey ∧ slashNaming.leading = [] ∧
        43 ∉ slashNaming.sourceKey :=
  slashNaming.isResolved_iff rfl rfl

/-- A key of two segments is cut when the bucket is named by the host. -/
theorem not_isResolved_slash :
    ¬ ∀ (urls : UrlLibrary) (bucket key versionId : Bytes) (naming : Naming bucket key versionId),
      urls.parseOriginForm naming.pathRequest.target = originSegments naming.pathRequest.target →
        urls.parseOriginForm naming.hostRequest.target =
          originSegments naming.hostRequest.target → naming.IsResolved urls := by
  intro hresolved
  have hkey := (hresolved decodingLibrary _ _ _ slashNaming rfl rfl).host.2
  have hread : getS3ObjectKey decodingLibrary slashNaming.hostRequest = .ok (ascii "a") := by
    decide +kernel
  rw [hread] at hkey
  cases hkey

end Samples

end AwsMock.S3

