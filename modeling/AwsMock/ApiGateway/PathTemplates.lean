import AwsMock.Foundation.Template
import AwsMock.ApiGateway.Invocation
import AwsMock.Gateway.Safety

/-! # Templates of resources

A path fits a template segment by segment, the empty segments included, and a parameter
takes a segment that is not empty. The handler leaves empty segments out and takes the
first resource, so the choice depends on the order of the resources.
-/

namespace AwsMock.ApiGateway

open Http HttpUtils Gateway Foundation

section Templates

def toSegment (part : Bytes) : Segment Bytes Bytes :=
  if isParameter part then .parameter (parameterName part) else .literal part

def template (pattern : Bytes) : List (Segment Bytes Bytes) :=
  (Bytes.split pattern 47).map toSegment

def Fits (pattern path : Bytes) : Prop :=
  Template.Matches (· ≠ []) (template pattern) (Bytes.split path 47)

def substitute (assignment : Bytes → Bytes) (pattern : Bytes) : Bytes :=
  [47].intercalate ((template pattern).map (Segment.substitute assignment))

def lookup (params : List (Bytes × Bytes)) (name : Bytes) : Option Bytes :=
  (params.find? fun param => param.1 = name).map Prod.snd

/-- The parameters are what has to be put into the template to get the path, and nothing
else does. -/
structure IsSubstitution (pattern path : Bytes) (params : List (Bytes × Bytes)) : Prop where
  names : ∀ name, (lookup params name).isSome = true ↔ name ∈ Template.names (template pattern)
  turns : substitute (fun name => (lookup params name).getD []) pattern = path
  unique : ∀ assignment, (∀ name, 47 ∉ assignment name) → substitute assignment pattern = path →
    ∀ name ∈ Template.names (template pattern), lookup params name = some (assignment name)

def IsConsistent (pattern path : Bytes) : Prop :=
  ∀ binding ∈ Template.bindings (template pattern) (Bytes.split path 47),
    ∀ other ∈ Template.bindings (template pattern) (Bytes.split path 47),
      binding.1 = other.1 → binding.2 = other.2

end Templates

section Routes

variable (urls : UrlLibrary) (backend : Backend) (request : Request)

structure IsBelow (target restApiId stage path : Bytes) : Prop where
  hasId : restApiId ≠ [] ∧ 63 ∉ restApiId
  endsStage : 47 ∉ stage ∧ 63 ∉ stage
  endsPath : (path = [] ∨ path.head? = some 47) ∧ 63 ∉ path
  readsAs : ∃ query, (query = [] ∨ query.head? = some 63) ∧
    target = ascii "/restapis/" ++ restApiId ++ 47 :: stage ++ path ++ query

/-- The path of a resource is that of its request, or the root when there is none. -/
def rooted (path : Bytes) : Bytes := if path = [] then ascii "/" else path

/-- A request is taken to a resource exactly when its path fits one, to one that is
not beaten, and with the parameters that turn the template into the path. -/
structure IsRoutedTo (resources : UnorderedMap Bytes Resource) (path : Bytes) : Prop where
  found : (∃ located, locate urls backend request = .ok (.ok located)) ↔
    ∃ resource ∈ resources.values, Fits resource.path path
  fits : ∀ located, locate urls backend request = .ok (.ok located) →
    located.resource ∈ resources.values ∧ Fits located.resource.path path
  specific : ∀ located, locate urls backend request = .ok (.ok located) →
    ∀ resource ∈ resources.values, Fits resource.path path →
      ¬ Template.Beats (template resource.path) (template located.resource.path)
  parameters : ∀ located event, locate urls backend request = .ok (.ok located) →
    buildLambdaProxyEvent request backend.requestId located = .ok event →
      IsSubstitution located.resource.path path event.pathParameters

/-- The first resource that the handler takes for one the path fits is one, its equal
parameters stand for equal segments, unless no event is built for want of a query, and
no resource after it beats it. -/
def IsWellOrdered (target : Bytes) (resources : List Resource) (path : Bytes) : Prop :=
  ∀ before resource after, resources = before ++ resource :: after →
    (∀ earlier ∈ before, pathMatches earlier.path path = false) →
      pathMatches resource.path path = true → Fits resource.path path ∧
          ((getQueryParameters target).isSome = true → IsConsistent resource.path path) ∧
          ∀ later ∈ after, Fits later.path path →
            ¬ Template.Beats (template later.path) (template resource.path)

end Routes

section Parts

variable {pattern path : Bytes} {params : List (Bytes × Bytes)} {tp ap : List Bytes}

theorem ne_nil_of_isParameter {part : Bytes} (hparameter : isParameter part = true) :
    part ≠ [] := by
  rintro rfl
  cases hparameter

theorem filter_cons_ne_nil {part : Bytes} (hpart : part ≠ []) (parts : List Bytes) :
    (part :: parts).filter (· ≠ []) = part :: parts.filter (· ≠ []) :=
  List.filter_cons_of_pos (decide_eq_true hpart)

theorem segmentsMatch_of_fits (hfits : Template.Matches (· ≠ []) (tp.map toSegment) ap) :
    segmentsMatch (tp.filter (· ≠ [])) (ap.filter (· ≠ [])) = true := by
  induction tp generalizing ap with
  | nil =>
    cases hfits
    rfl
  | cons t tp ih =>
    cases hfits with
    | @cons _ a _ ap hsegment hrest =>
      have hlater := ih hrest
      unfold toSegment at hsegment
      by_cases hparameter : isParameter t = true
      · rw [if_pos hparameter] at hsegment
        have ha : a ≠ [] := hsegment
        rw [filter_cons_ne_nil (ne_nil_of_isParameter hparameter),
          filter_cons_ne_nil ha, segmentsMatch, hparameter, hlater]
        rfl
      · rw [if_neg hparameter] at hsegment
        have ha : t = a := hsegment
        subst ha
        by_cases hempty : t = []
        · subst hempty
          exact hlater
        · rw [filter_cons_ne_nil hempty, filter_cons_ne_nil hempty, segmentsMatch, hlater,
            decide_eq_true rfl, Bool.or_true]
          rfl

theorem pathMatches_of_fits (hfits : Fits pattern path) : pathMatches pattern path = true := by
  unfold pathMatches splitPath
  rw [segmentsMatch_of_fits hfits, Bool.or_true]

theorem length_eq_of_segmentsMatch (hmatch : segmentsMatch tp ap = true) :
    tp.length = ap.length := by
  induction tp generalizing ap with
  | nil =>
    cases ap with
    | nil => rfl
    | cons a ap => cases hmatch
  | cons t tp ih =>
    cases ap with
    | nil => cases hmatch
    | cons a ap =>
      rw [segmentsMatch, Bool.and_eq_true] at hmatch
      exact congrArg Nat.succ (ih hmatch.2)

theorem bindings_filter (hfits : Template.Matches (· ≠ []) (tp.map toSegment) ap) :
    Template.bindings ((tp.filter (· ≠ [])).map toSegment) (ap.filter (· ≠ [])) =
      Template.bindings (tp.map toSegment) ap := by
  induction tp generalizing ap with
  | nil =>
    cases hfits
    rfl
  | cons t tp ih =>
    cases hfits with
    | @cons _ a _ ap hsegment hrest =>
      have hlater := ih hrest
      unfold toSegment at hsegment
      by_cases hparameter : isParameter t = true
      · rw [if_pos hparameter] at hsegment
        have ha : a ≠ [] := hsegment
        rw [filter_cons_ne_nil (ne_nil_of_isParameter hparameter),
          filter_cons_ne_nil ha, List.map_cons, List.map_cons,
          toSegment, if_pos hparameter]
        exact congrArg (List.cons (parameterName t, a)) hlater
      · rw [if_neg hparameter] at hsegment
        have ha : t = a := hsegment
        subst ha
        rw [List.map_cons, toSegment, if_neg hparameter]
        by_cases hempty : t = []
        · subst hempty
          exact hlater
        · rw [filter_cons_ne_nil hempty, filter_cons_ne_nil hempty, List.map_cons, toSegment,
            if_neg hparameter]
          exact hlater

theorem extractSegments_eq_foldl (params : List (Bytes × Bytes)) (tp ap : List Bytes) :
    extractSegments params tp ap = (Template.bindings (tp.map toSegment) ap).foldl
        (fun params binding => assign binding.1 binding.2 params) params := by
  induction tp generalizing params ap with
  | nil => cases ap <;> rfl
  | cons t tp ih =>
    cases ap with
    | nil =>
      rw [List.map_cons, toSegment]
      split_ifs <;> rfl
    | cons a ap =>
      rw [extractSegments, ih, List.map_cons, toSegment]
      by_cases hparameter : isParameter t = true
      · rw [if_pos hparameter, if_pos hparameter]
        rfl
      · rw [if_neg hparameter, if_neg hparameter]
        rfl

theorem extractPathParameters_of_fits (hfits : Fits pattern path) :
    extractPathParameters pattern path =
      (Template.bindings (template pattern) (Bytes.split path 47)).foldl
        (fun params binding => assign binding.1 binding.2 params) [] := by
  have hlength : (splitPath pattern).length = (splitPath path).length :=
    length_eq_of_segmentsMatch (segmentsMatch_of_fits hfits)
  unfold extractPathParameters
  dsimp only
  rw [if_neg (not_not.mpr hlength), extractSegments_eq_foldl]
  exact congrArg (List.foldl _ []) (bindings_filter hfits)

theorem lookup_cons (key value : Bytes) (params : List (Bytes × Bytes)) (name : Bytes) :
    lookup ((key, value) :: params) name =
      if key = name then some value else lookup params name := by
  unfold lookup
  rw [List.find?_cons]
  by_cases hname : key = name
  · rw [if_pos hname, decide_eq_true hname]
    rfl
  · rw [if_neg hname, decide_eq_false hname]

theorem lookup_assign (key value : Bytes) (params : List (Bytes × Bytes)) (name : Bytes) :
    lookup (assign key value params) name =
      if key = name then some value else lookup params name := by
  induction params with
  | nil => exact lookup_cons key value [] name
  | cons param params ih =>
    obtain ⟨k, v⟩ := param
    rw [assign]
    by_cases hkey : key = k
    · rw [if_pos hkey, lookup_cons, lookup_cons, hkey]
      split_ifs <;> rfl
    · rw [if_neg hkey]
      by_cases hless : key < k
      · rw [if_pos hless, lookup_cons]
      · rw [if_neg hless, lookup_cons, lookup_cons, ih]
        by_cases hname : key = name
        · rw [if_pos hname, if_neg fun hk => hkey (hname.trans hk.symm), if_pos hname]
        · rw [if_neg hname, if_neg hname]

theorem lookup_foldl_assign {bindings : List (Bytes × Bytes)} {name : Bytes} :
    (lookup (bindings.foldl (fun params binding => assign binding.1 binding.2 params) params)
        name = lookup params name ∧ name ∉ bindings.map Prod.fst) ∨
      ∃ value, lookup (bindings.foldl
          (fun params binding => assign binding.1 binding.2 params) params) name = some value ∧
        (name, value) ∈ bindings := by
  induction bindings generalizing params with
  | nil => exact .inl ⟨rfl, List.not_mem_nil⟩
  | cons binding bindings ih =>
    rw [List.foldl_cons]
    rcases @ih (assign binding.1 binding.2 params) with ⟨hlookup, hnames⟩ | ⟨value, hlookup, hmem⟩
    · rw [lookup_assign] at hlookup
      by_cases hname : binding.1 = name
      · rw [if_pos hname] at hlookup
        refine .inr ⟨binding.2, hlookup, ?_⟩
        rw [← hname]
        exact List.mem_cons_self
      · rw [if_neg hname] at hlookup
        refine .inl ⟨hlookup, ?_⟩
        rw [List.map_cons, List.mem_cons, not_or]
        exact ⟨fun heq => hname heq.symm, hnames⟩
    · exact .inr ⟨value, hlookup, List.mem_cons_of_mem _ hmem⟩

end Parts

section Substitutions

variable {pattern path : Bytes}

theorem substitute_eq_iff {assignment : Bytes → Bytes} (hsegments : ∀ name, 47 ∉ assignment name) :
    substitute assignment pattern = path ↔
      (template pattern).map (Segment.substitute assignment) = Bytes.split path 47 := by
  have hnonempty : (template pattern).map (Segment.substitute assignment) ≠ [] := by
    intro hempty
    rw [template, List.map_eq_nil_iff, List.map_eq_nil_iff] at hempty
    exact List.splitOn_ne_nil 47 pattern hempty
  have hfree : ∀ part ∈ (template pattern).map (Segment.substitute assignment), 47 ∉ part := by
    intro part hpart
    obtain ⟨segment, hsegment, rfl⟩ := List.mem_map.mp hpart
    obtain ⟨text, htext, rfl⟩ := List.mem_map.mp hsegment
    unfold toSegment
    split_ifs
    · exact hsegments _
    · exact notMem_of_mem_splitOn htext
  unfold substitute Bytes.split
  constructor
  · intro hpath
    rw [← hpath, List.splitOn_intercalate 47 hfree hnonempty]
  · intro hsplit
    rw [hsplit, List.intercalate_splitOn]

theorem lookup_extractPathParameters (hfits : Fits pattern path) {name : Bytes} :
    (lookup (extractPathParameters pattern path) name = none ∧
        name ∉ Template.names (template pattern)) ∨
      ∃ value, lookup (extractPathParameters pattern path) name = some value ∧
        (name, value) ∈ Template.bindings (template pattern) (Bytes.split path 47) := by
  rw [extractPathParameters_of_fits hfits, ← Template.map_fst_bindings hfits]
  exact lookup_foldl_assign

theorem isSubstitution_iff (hfits : Fits pattern path) :
    IsSubstitution pattern path (extractPathParameters pattern path) ↔
      IsConsistent pattern path := by
  have hlookup := @lookup_extractPathParameters pattern path hfits
  have hsegments : ∀ name, 47 ∉ (lookup (extractPathParameters pattern path) name).getD [] := by
    intro name
    rcases @hlookup name with ⟨hnone, -⟩ | ⟨value, hvalue, hmem⟩
    · rw [hnone]
      exact List.not_mem_nil
    · rw [hvalue]
      exact notMem_of_mem_splitOn (Template.mem_of_mem_bindings hmem)
  constructor
  · intro hsubstitution binding hbinding other hother hname
    have hturns := hsubstitution.turns
    rw [substitute_eq_iff hsegments, Template.map_substitute_eq_iff hfits] at hturns
    rw [← hturns binding hbinding, ← hturns other hother, hname]
  · intro hconsistent
    refine ⟨fun name => ?_, ?_, ?_⟩
    · rcases @hlookup name with ⟨hnone, hnames⟩ | ⟨value, hvalue, hmem⟩
      · rw [hnone]
        exact iff_of_false nofun hnames
      · rw [hvalue, ← Template.map_fst_bindings hfits]
        exact iff_of_true rfl (List.mem_map_of_mem hmem)
    · rw [substitute_eq_iff hsegments, Template.map_substitute_eq_iff hfits]
      intro binding hbinding
      rcases @hlookup binding.1 with ⟨-, hnames⟩ | ⟨value, hvalue, hmem⟩
      · rw [← Template.map_fst_bindings hfits] at hnames
        exact absurd (List.mem_map_of_mem hbinding) hnames
      · rw [hvalue]
        exact hconsistent _ hmem binding hbinding rfl
    · intro assignment hfree hturns name hname
      rw [substitute_eq_iff hfree, Template.map_substitute_eq_iff hfits] at hturns
      rcases @hlookup name with ⟨-, hnames⟩ | ⟨value, hvalue, hmem⟩
      · exact absurd hname hnames
      · rw [hvalue, hturns _ hmem]

end Substitutions

section Routing

variable {urls : UrlLibrary} {backend : Backend} {request : Request} {restApi : RestApi}
  {restApiId stage path : Bytes}

theorem stageAndPath_of_isBelow {target : Bytes} (hbelow : IsBelow target restApiId stage path) :
    stageAndPath target restApiId = (stage, rooted path) := by
  obtain ⟨⟨-, hid⟩, ⟨hslash, hstage⟩, ⟨hpath, hpathQuery⟩, query, hquery, htarget⟩ := hbelow
  have hprefix : target = (ascii "/restapis/" ++ restApiId) ++ (47 :: (stage ++ path) ++ query) := by
    rw [htarget]
    simp only [List.append_assoc, List.cons_append]
  have hstarts : Bytes.startsWith target (ascii "/restapis/" ++ restApiId) = true := by
    rw [ hprefix]
    exact List.isPrefixOf_iff_prefix.mpr (List.prefix_append _ _)
  have hdrop : target.drop (ascii "/restapis/" ++ restApiId).length =
      47 :: (stage ++ path) ++ query := by
    rw [ hprefix, List.drop_left]
  have htake : (47 :: (stage ++ path) ++ query).takeWhile (· ≠ 63) = 47 :: (stage ++ path) := by
    have hfree : ∀ c ∈ 47 :: (stage ++ path), decide (c ≠ 63) = true := by
      intro c hc
      rw [decide_eq_true_iff]
      rintro rfl
      rcases List.mem_cons.mp hc with hc | hc
      · cases hc
      · rcases List.mem_append.mp hc with hc | hc
        · exact hstage hc
        · exact hpathQuery hc
    rw [List.takeWhile_append_of_pos hfree]
    rcases hquery with rfl | hquery
    · exact List.append_nil _
    · cases query with
      | nil => cases hquery
      | cons c query =>
        have hc : c = 63 := Option.some.inj hquery
        rw [List.takeWhile_cons_of_neg (by rw [hc]; decide), List.append_nil]
  have hfree : ∀ c ∈ stage, decide (c ≠ 47) = true := by
    intro c hc
    rw [decide_eq_true_iff]
    rintro rfl
    exact hslash hc
  unfold stageAndPath rooted
  dsimp only
  rw [if_pos hstarts, hdrop, htake]
  rcases hpath with rfl | hpath
  · rw [List.append_nil, if_pos rfl]
    have htakeStage : stage.takeWhile (· ≠ 47) = stage := by
      rw [List.takeWhile_eq_self_iff]
      exact hfree
    have hdropStage : stage.dropWhile (· ≠ 47) = [] := by
      rw [List.dropWhile_eq_nil_iff]
      exact hfree
    by_cases hempty : stage = []
    · subst hempty
      rfl
    · rw [if_pos ⟨by rw [List.length_cons]; have := List.length_pos_iff.mpr hempty; omega, rfl⟩,
        List.tail_cons, htakeStage, hdropStage, if_pos rfl]
  · cases path with
    | nil => cases hpath
    | cons c path =>
      have hc : c = 47 := Option.some.inj hpath
      have hlong : (47 :: (stage ++ c :: path)).length > 1 := by
        rw [List.length_cons, List.length_append, List.length_cons]
        omega
      rw [if_pos ⟨hlong, rfl⟩, List.tail_cons, List.takeWhile_append_of_pos hfree,
        List.dropWhile_append_of_pos hfree, List.takeWhile_cons_of_neg (by rw [hc]; decide),
        List.dropWhile_cons_of_neg (by rw [hc]; decide), List.append_nil,
        if_neg (List.cons_ne_nil _ _)]

theorem locate_eq (hbelow : IsBelow request.target restApiId stage path)
    (hparsed : (urls.parseOriginForm request.target).map (·[1]?) = some (some restApiId))
    (hapi : backend.getRestApi restApiId = some restApi) :
    locate urls backend request = .ok
      (match restApi.resources.values.find? fun resource =>
          pathMatches resource.path (rooted path) with
        | none => .error (.refuse 404 "Resource not found")
        | some resource =>
          .ok { restApiId, stageName := stage, resourcePath := rooted path, restApi, resource }) := by
  have hid : getPathParameter urls request.target 1 = .ok restApiId := by
    unfold getPathParameter getPathParameters
    obtain ⟨segments, hsegments, hsecond⟩ := Option.map_eq_some_iff.mp hparsed
    rw [hsegments]
    change Except.ok (segments.getD 1 []) = _
    rw [List.getD_eq_getElem?_getD, hsecond]
    rfl
  refine bind_eq_ok.mpr ⟨restApiId, hid, ?_⟩
  rw [if_neg hbelow.hasId.1, stageAndPath_of_isBelow hbelow]
  dsimp only
  rw [hapi]
  dsimp only
  rw [findResource, UnorderedMap.map_snd_findIf]
  cases restApi.resources.values.find? fun resource => pathMatches resource.path (rooted path) <;>
    rfl

theorem pathParameters_of_event {located : Located} {event : ProxyEvent}
    (hevent : buildLambdaProxyEvent request backend.requestId located = .ok event) :
    (getQueryParameters request.target).isSome = true ∧
      event.pathParameters = extractPathParameters located.resource.path located.resourcePath := by
  unfold buildLambdaProxyEvent at hevent
  cases hquery : getQueryParameters request.target with
  | none =>
    rw [hquery] at hevent
    cases hevent
  | some query =>
    rw [hquery] at hevent
    cases hevent
    exact ⟨rfl, rfl⟩

/-- A request is routed to the most specific resource exactly when the resources stand
in such an order that it comes first. -/
theorem isRoutedTo_iff (hbelow : IsBelow request.target restApiId stage path)
    (hparsed : (urls.parseOriginForm request.target).map (·[1]?) = some (some restApiId))
    (hapi : backend.getRestApi restApiId = some restApi) :
    IsRoutedTo urls backend request restApi.resources (rooted path) ↔
      IsWellOrdered request.target restApi.resources.values (rooted path) := by
  have hlocate := @locate_eq urls backend request restApi restApiId stage path hbelow hparsed hapi
  constructor
  · intro hrouted before resource after hvalues hearlier hmatches
    have hfind : restApi.resources.values.find?
        (fun resource => pathMatches resource.path (rooted path)) = some resource := by
      rw [List.find?_eq_some_iff_append]
      refine ⟨hmatches, before, after, hvalues, ?_⟩
      intro earlier hmem
      rw [hearlier earlier hmem]
      rfl
    rw [hfind] at hlocate
    have hfits := (hrouted.fits _ hlocate).2
    refine ⟨hfits, ?_, ?_⟩
    · intro hquery
      obtain ⟨query, hquery⟩ := Option.isSome_iff_exists.mp hquery
      have hevent : ∃ event, buildLambdaProxyEvent request backend.requestId
          { restApiId, stageName := stage, resourcePath := rooted path, restApi, resource } =
            .ok event := by
        unfold buildLambdaProxyEvent
        rw [hquery]
        exact ⟨_, rfl⟩
      obtain ⟨event, hevent⟩ := hevent
      have hsubstitution := hrouted.parameters _ event hlocate hevent
      rw [(pathParameters_of_event hevent).2] at hsubstitution
      exact (isSubstitution_iff hfits).mp hsubstitution
    · intro later hlater hfitsLater
      apply hrouted.specific _ hlocate later _ hfitsLater
      rw [hvalues]
      exact List.mem_append_right _ (List.mem_cons_of_mem _ hlater)
  · intro hordered
    -- what the handler has found stands first among the resources it takes for matching
    have hfound : ∀ located, locate urls backend request = .ok (.ok located) →
        located.resourcePath = rooted path ∧
        ∃ before after, restApi.resources.values = before ++ located.resource :: after ∧
          (∀ earlier ∈ before, pathMatches earlier.path (rooted path) = false) ∧
            pathMatches located.resource.path (rooted path) = true := by
      intro located hlocated
      rw [hlocate] at hlocated
      cases hfind : restApi.resources.values.find?
          fun resource => pathMatches resource.path (rooted path) with
      | none =>
        rw [hfind] at hlocated
        cases hlocated
      | some resource =>
        rw [hfind] at hlocated
        cases hlocated
        obtain ⟨hmatches, before, after, hvalues, hearlier⟩ :=
          List.find?_eq_some_iff_append.mp hfind
        refine ⟨rfl, before, after, hvalues, fun earlier hmem => ?_, hmatches⟩
        have hfalse := hearlier earlier hmem
        rwa [Bool.not_eq_true'] at hfalse
    refine ⟨⟨?_, ?_⟩, ?_, ?_, ?_⟩
    · rintro ⟨located, hlocated⟩
      obtain ⟨-, before, after, hvalues, hearlier, hmatches⟩ := hfound located hlocated
      refine ⟨located.resource, ?_, (hordered before _ after hvalues hearlier hmatches).1⟩
      rw [hvalues]
      exact List.mem_append_right _ List.mem_cons_self
    · rintro ⟨resource, hresource, hfits⟩
      have hsome : (restApi.resources.values.find?
          fun resource => pathMatches resource.path (rooted path)).isSome = true :=
        List.find?_isSome.mpr ⟨resource, hresource, pathMatches_of_fits hfits⟩
      obtain ⟨first, hfirst⟩ := Option.isSome_iff_exists.mp hsome
      rw [hfirst] at hlocate
      exact ⟨_, hlocate⟩
    · intro located hlocated
      obtain ⟨-, before, after, hvalues, hearlier, hmatches⟩ := hfound located hlocated
      refine ⟨?_, (hordered before _ after hvalues hearlier hmatches).1⟩
      rw [hvalues]
      exact List.mem_append_right _ List.mem_cons_self
    · intro located hlocated resource hresource hfits
      obtain ⟨-, before, after, hvalues, hearlier, hmatches⟩ := hfound located hlocated
      rw [hvalues] at hresource
      rcases List.mem_append.mp hresource with hbefore | hrest
      · have hfalse := hearlier resource hbefore
        rw [pathMatches_of_fits hfits] at hfalse
        cases hfalse
      · rcases List.mem_cons.mp hrest with rfl | hafter
        · exact Template.not_beats_self _
        · exact (hordered before _ after hvalues hearlier hmatches).2.2 resource hafter hfits
    · intro located event hlocated hevent
      obtain ⟨hpath, before, after, hvalues, hearlier, hmatches⟩ := hfound located hlocated
      obtain ⟨hquery, hparameters⟩ := pathParameters_of_event hevent
      obtain ⟨hfits, hconsistent, -⟩ := hordered before _ after hvalues hearlier hmatches
      rw [hparameters, hpath, isSubstitution_iff hfits]
      exact hconsistent hquery

end Routing

section Samples

def shopApi : RestApi where
  authorizers := .empty
  resources :=
    { entries := [(ascii "r1", { path := ascii "/{id}", resourceMethods := .empty }),
        (ascii "r2", { path := ascii "/orders", resourceMethods := .empty })]
      nodup := by decide }

def shopBackend : Backend where
  getRestApi id := if id = ascii "x1" then some shopApi else none
  apiKeys := []
  invoke _ _ _ := .threw
  parseJson _ := none
  requestId := []

def shopRequest : Request where
  methodString := ascii "GET"
  target := ascii "/restapis/x1/dev/orders"

theorem isBelow_shop :
    IsBelow shopRequest.target (ascii "x1") (ascii "dev") (ascii "/orders") where
  hasId := by decide
  endsStage := by decide
  endsPath := by decide
  readsAs := ⟨[], .inl rfl, by decide⟩

theorem isRoutedTo_shop :
    IsRoutedTo plainLibrary shopBackend shopRequest shopApi.resources (rooted (ascii "/orders")) ↔
      IsWellOrdered shopRequest.target shopApi.resources.values (rooted (ascii "/orders")) :=
  isRoutedTo_iff isBelow_shop (by decide) rfl

/-- A parameter is taken before the literal that the path is. -/
theorem not_isRoutedTo_shop :
    ¬ ∀ (urls : UrlLibrary) (backend : Backend) (request : Request) (restApi : RestApi)
      (restApiId stage path : Bytes), IsBelow request.target restApiId stage path →
        (urls.parseOriginForm request.target).map (·[1]?) = some (some restApiId) →
          backend.getRestApi restApiId = some restApi →
            IsRoutedTo urls backend request restApi.resources (rooted path) := by
  intro hrouted
  have hshop := hrouted plainLibrary shopBackend shopRequest shopApi (ascii "x1") (ascii "dev")
    (ascii "/orders") isBelow_shop (by decide) rfl
  have hlocate : locate plainLibrary shopBackend shopRequest = .ok (.ok
      { restApiId := ascii "x1", stageName := ascii "dev", resourcePath := ascii "/orders",
        restApi := shopApi, resource := { path := ascii "/{id}", resourceMethods := .empty } }) :=
    rfl
  apply hshop.specific _ hlocate { path := ascii "/orders", resourceMethods := .empty }
  · exact List.mem_cons_of_mem _ List.mem_cons_self
  · exact .cons rfl (.cons rfl .nil)
  · exact trivial

end Samples

end AwsMock.ApiGateway
