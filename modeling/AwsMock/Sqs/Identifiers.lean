import AwsMock.Foundation.Separated
import AwsMock.Sqs.Dto

/-! # Identifiers of queues

A queue is named by its name, its ARN or its URL, and the conversions recognise which of them they
are given. They agree on a queue when its region is the configured one and when neither its name
nor the configuration can be taken for something else.
-/

namespace AwsMock

open Foundation

/-- `ContainsIgnoreCase` -/
def StringUtils.containsIgnoreCase (s1 s2 : String) : Bool :=
  decide (s2.toList.map Char.toLower <:+: s1.toList.map Char.toLower)

namespace AwsUtils

def isSQSUrl (queue : String) : Bool := StringUtils.startsWith queue "http"

def isSQSArn (queue : String) : Bool := StringUtils.containsIgnoreCase queue "arn"

def sanitizeSQSUrl (config : Configuration) (queue : String) : String :=
  if isSQSUrl queue then queue
  else if isSQSArn queue then convertSQSQueueArnToUrl config queue
  else createSQSQueueUrl config queue

/-! ## What is recognised -/

section Recognised

theorem startsWith_iff {s1 s2 : String} :
    StringUtils.startsWith s1 s2 = true ↔ s2.toList <+: s1.toList :=
  List.isPrefixOf_iff_prefix

theorem not_colon_of_isArnLetter {area : List Char}
    (hletters : ∀ c ∈ area, isArnLetter c = true) : ':' ∉ area :=
  fun hmem => absurd (hletters ':' hmem) (by decide)

/-- What a resource may be: it is not empty and on one line. -/
def IsResource (resource : List Char) : Prop :=
  resource ≠ [] ∧ ∀ c ∈ resource, isLineTerminator c = false

def IsAccount (account : List Char) : Prop :=
  account = [] ∨ account.length = 12 ∧ ∀ c ∈ account, c.isDigit = true

theorem not_colon_of_isAccount {account : List Char} (haccount : IsAccount account) :
    ':' ∉ account := by
  rcases haccount with rfl | ⟨-, hdigits⟩
  · exact List.not_mem_nil
  · exact fun hmem => absurd (hdigits ':' hmem) (by decide)

def isResourceAfterColon : List Char → Bool
  | ':' :: rest => !rest.isEmpty && rest.all fun c => !isLineTerminator c
  | _ => false

theorem isResourceAfterColon_iff {text : List Char} :
    isResourceAfterColon text = true ↔ ∃ resource, text = ':' :: resource ∧ IsResource resource := by
  rw [isResourceAfterColon.eq_def]
  split
  next rest =>
    rw [Bool.and_eq_true, Bool.not_eq_true', List.isEmpty_eq_false_iff, List.all_eq_true]
    constructor
    · rintro ⟨hne, hline⟩
      exact ⟨rest, rfl, hne, fun c hc => (Bool.not_eq_true' _).mp (hline c hc)⟩
    · rintro ⟨resource, heq, hne, hline⟩
      obtain rfl := (List.cons.inj heq).2
      exact ⟨hne, fun c hc => (Bool.not_eq_true' _).mpr (hline c hc)⟩
  next hother =>
    refine iff_of_false Bool.false_ne_true ?_
    rintro ⟨resource, rfl, -⟩
    exact hother resource rfl

theorem isArnTail_eq (text : List Char) :
    isArnTail text = (isResourceAfterColon text ||
      ((text.take 12).length = 12 && (text.take 12).all Char.isDigit &&
        isResourceAfterColon (text.drop 12))) := rfl

theorem isArnTail_iff {text : List Char} :
    isArnTail text = true ↔
      ∃ account resource, text = account ++ ':' :: resource ∧ IsAccount account ∧
        IsResource resource := by
  simp only [isArnTail_eq, Bool.or_eq_true, Bool.and_eq_true, decide_eq_true_eq,
    isResourceAfterColon_iff]
  constructor
  · rintro (⟨resource, rfl, hresource⟩ | ⟨⟨hlength, hdigits⟩, resource, hdrop, hresource⟩)
    · exact ⟨[], resource, rfl, .inl rfl, hresource⟩
    · refine ⟨text.take 12, resource, ?_, .inr ⟨hlength, List.all_eq_true.mp hdigits⟩, hresource⟩
      rw [← hdrop, List.take_append_drop]
  · rintro ⟨account, resource, rfl, rfl | ⟨hlength, hdigits⟩, hresource⟩
    · exact .inl ⟨resource, rfl, hresource⟩
    · refine .inr ⟨⟨?_, ?_⟩, resource, ?_, hresource⟩
      · rw [List.take_left' hlength, hlength]
      · rw [List.take_left' hlength]
        exact List.all_eq_true.mpr hdigits
      · rw [List.drop_left' hlength]

def isRegionAndTail (text : List Char) : Bool :=
  match text.dropWhile isArnLetter with
  | ':' :: afterRegion => isArnTail afterRegion
  | _ => false

theorem isArn_eq {value : String} {text : List Char}
    (hvalue : value.toList = "arn:aws:sqs:".toList ++ text) :
    isArn value = isRegionAndTail text := by
  have hcn : StringUtils.startsWith value "arn:aws-cn:" = false := by
    rw [StringUtils.startsWith, hvalue]
    rfl
  have hgov : StringUtils.startsWith value "arn:aws-us-gov:" = false := by
    rw [StringUtils.startsWith, hvalue]
    rfl
  have haws : StringUtils.startsWith value "arn:aws:" = true := by
    rw [StringUtils.startsWith, hvalue]
    rfl
  have hservice : value.toList.drop "arn:aws:".length = 's' :: 'q' :: 's' :: ':' :: text := by
    rw [hvalue]
    rfl
  rw [isArn, List.any_cons, List.any_cons, List.any_cons, hcn, hgov, haws, hservice]
  change ((!"sqs".toList.isEmpty && isRegionAndTail text) || false) = isRegionAndTail text
  exact Bool.or_false _

theorem isRegionAndTail_iff {text : List Char} :
    isRegionAndTail text = true ↔
      ∃ area account resource, text = area ++ ':' :: (account ++ ':' :: resource) ∧
        (∀ c ∈ area, isArnLetter c = true) ∧ IsAccount account ∧ IsResource resource := by
  rw [isRegionAndTail]
  constructor
  · intro htail
    split at htail
    next afterRegion hdrop =>
      obtain ⟨account, resource, rfl, haccount, hresource⟩ := isArnTail_iff.mp htail
      refine ⟨text.takeWhile isArnLetter, account, resource, ?_, ?_, haccount, hresource⟩
      · rw [← hdrop, List.takeWhile_append_dropWhile]
      · exact List.all_eq_true.mp List.all_takeWhile
    next => cases htail
  · rintro ⟨area, account, resource, rfl, hletters, haccount, hresource⟩
    have hcolon : isArnLetter ':' = false := by decide
    rw [List.dropWhile_append_of_pos hletters, List.dropWhile_cons_of_neg (by simp [hcolon])]
    exact isArnTail_iff.mpr ⟨account, resource, rfl, haccount, hresource⟩

theorem isUrl_http_iff {value : String} {text : List Char}
    (hvalue : value.toList = "http://".toList ++ text) :
    isUrl value = true ↔ ∀ c ∈ text, isLineTerminator c = false := by
  have hhttps : StringUtils.startsWith value "https://" = false := by
    rw [StringUtils.startsWith, hvalue]
    rfl
  have hhttp : StringUtils.startsWith value "http://" = true := by
    rw [StringUtils.startsWith, hvalue]
    rfl
  have hdrop : value.toList.drop 7 = text := by
    rw [hvalue]
    rfl
  rw [isUrl, hhttps, hhttp]
  change ((value.toList.drop 7).all fun c => !isLineTerminator c) = true ↔ _
  rw [hdrop, List.all_eq_true]
  exact forall₂_congr fun c _ => iff_of_eq (Bool.not_eq_true' _)

theorem isSQSUrl_of_isUrl {value : String} (hurl : isUrl value = true) : isSQSUrl value = true := by
  have hstart : ∀ start : String, "http".toList <+: start.toList →
      StringUtils.startsWith value start = true → isSQSUrl value = true := fun start hhttp hstart =>
    startsWith_iff.mpr (hhttp.trans (startsWith_iff.mp hstart))
  rw [isUrl] at hurl
  split at hurl
  next length hscheme =>
    split at hscheme
    next hhttps => exact hstart _ (by decide) hhttps
    next =>
      split at hscheme
      next hhttp => exact hstart _ (by decide) hhttp
      next => cases hscheme
  next => cases hurl

theorem isSQSArn_of_startsWith {value start : String} (hstart : StringUtils.startsWith value start)
    (harn : "arn".toList <+: start.toList) : isSQSArn value = true := by
  have hprefixed := (harn.trans (startsWith_iff.mp hstart)).map Char.toLower
  exact decide_eq_true (List.IsPrefix.isInfix hprefixed)

theorem isSQSArn_of_isArn {value : String} (harn : isArn value = true) : isSQSArn value = true := by
  rw [isArn, List.any_eq_true] at harn
  obtain ⟨partition, hmem, hpartition⟩ := harn
  rw [Bool.and_eq_true] at hpartition
  refine isSQSArn_of_startsWith hpartition.1 ?_
  rcases List.mem_cons.mp hmem with rfl | hmem
  · decide
  · rcases List.mem_cons.mp hmem with rfl | hmem
    · decide
    · obtain rfl := List.mem_singleton.mp hmem
      decide

end Recognised

/-! ## What is taken out of an ARN -/

section Parts

variable {config : Configuration}

theorem split_arn {value : String} {area account first rest : List Char}
    (hvalue : value.toList = "arn:aws:sqs:".toList ++
      (area ++ ':' :: (account ++ ':' :: (first ++ rest))))
    (harea : ':' ∉ area) (haccount : ':' ∉ account) (hfirst : ':' ∉ first)
    (hrest : ∀ c ∈ rest.head?, c = ':') :
    ∃ more, StringUtils.split value ':' = "arn" :: "aws" :: "sqs" :: String.ofList area ::
      String.ofList account :: String.ofList first :: more := by
  obtain ⟨more, hmore⟩ := exists_splitOn_eq hfirst hrest
  refine ⟨more.map String.ofList, ?_⟩
  have hparts : value.toList.splitOn ':' =
      ['a', 'r', 'n'] :: ['a', 'w', 's'] :: ['s', 'q', 's'] :: area :: account :: first :: more := by
    rw [hvalue]
    change (['a', 'r', 'n'] ++ ':' :: (['a', 'w', 's'] ++ ':' :: (['s', 'q', 's'] ++ ':' ::
      (area ++ ':' :: (account ++ ':' :: (first ++ rest)))))).splitOn ':' = _
    rw [List.splitOn_append_cons_self_of_not_mem (by decide),
      List.splitOn_append_cons_self_of_not_mem (by decide),
      List.splitOn_append_cons_self_of_not_mem (by decide),
      List.splitOn_append_cons_self_of_not_mem harea,
      List.splitOn_append_cons_self_of_not_mem haccount, hmore]
  rw [StringUtils.split, hparts]
  rfl

theorem length_parts_lt {value : String} {a b c d account name : String} {more : List String}
    (hsplit : StringUtils.split value ':' = a :: b :: c :: d :: account :: name :: more) :
    account.toList.length + name.toList.length < value.toList.length := by
  have hparts : value.toList.splitOn ':' = a.toList :: b.toList :: c.toList :: d.toList ::
      account.toList :: name.toList :: more.map String.toList := by
    have hchars := congrArg (List.map String.toList) hsplit
    have hsame : String.toList ∘ String.ofList = id := funext fun text => String.toList_ofList
    rwa [StringUtils.split, List.map_map, hsame, List.map_id] at hchars
  rw [← @List.intercalate_splitOn _ value.toList _ _ ':', hparts]
  have hlast : name.toList.length ≤
      ([':'].intercalate (name.toList :: more.map String.toList)).length := by
    cases more with
    | nil => exact Nat.le_of_eq (congrArg List.length List.intercalate_singleton.symm)
    | cons next more =>
      rw [List.map_cons, List.intercalate_cons_cons, List.append_assoc, List.length_append]
      exact Nat.le_add_right _ _
  simp only [List.intercalate_cons_cons, List.length_append, List.length_singleton]
  omega

def queueHost (config : Configuration) : String :=
  "http://sqs." ++ config.region ++ "." ++ config.hostname ++ ":" ++ config.httpPort ++ "/"

theorem toList_sqsQueueUrl (accountId name : String) :
    (sqsQueueUrl config accountId name).toList =
      (queueHost config).toList ++ accountId.toList ++ '/' :: name.toList := by
  have heq : sqsQueueUrl config accountId name = queueHost config ++ accountId ++ "/" ++ name := rfl
  have hslash : "/".toList = ['/'] := by decide
  rw [heq, String.toList_append, String.toList_append, String.toList_append, hslash,
    List.append_assoc, List.singleton_append]

theorem length_sqsQueueUrl (accountId name : String) :
    (sqsQueueUrl config accountId name).toList.length =
      (queueHost config).toList.length + accountId.toList.length + 1 + name.toList.length := by
  rw [toList_sqsQueueUrl, List.length_append, List.length_append, List.length_cons]
  omega

theorem convertSQSQueueArnToUrl_ne {name : String} (hurl : isSQSUrl name = false) :
    convertSQSQueueArnToUrl config name ≠ createSQSQueueUrl config name := by
  have hempty : "" ≠ createSQSQueueUrl config name := by
    intro heq
    have hlength := congrArg (fun text => text.toList.length) heq
    change 0 = (sqsQueueUrl config config.accountId name).toList.length at hlength
    rw [length_sqsQueueUrl config.accountId name] at hlength
    omega
  have hnotUrl : isUrl name ≠ true := by
    intro hisUrl
    rw [isSQSUrl_of_isUrl hisUrl] at hurl
    cases hurl
  rw [convertSQSQueueArnToUrl, if_neg hnotUrl]
  split
  next => exact hempty
  next =>
    split
    next harn =>
      split
      next accountId queueName more hsplit =>
        intro heq
        have hshort := length_parts_lt hsplit
        have hlength := congrArg (fun text => text.toList.length) heq
        change (sqsQueueUrl config accountId queueName).toList.length =
          (sqsQueueUrl config config.accountId name).toList.length at hlength
        rw [length_sqsQueueUrl accountId queueName, length_sqsQueueUrl config.accountId name]
          at hlength
        omega
      next => exact hempty
    next => exact hempty

theorem sanitizeSQSUrl_eq_url_iff {name : String} :
    sanitizeSQSUrl config name = createSQSQueueUrl config name ↔
      isSQSUrl name = false ∧ isSQSArn name = false := by
  rw [sanitizeSQSUrl]
  cases hurl : isSQSUrl name with
  | true =>
    refine iff_of_false (fun heq => ?_) (fun h => nomatch h.1)
    have hlength := congrArg (fun text => text.toList.length) heq
    change name.toList.length = (sqsQueueUrl config config.accountId name).toList.length at hlength
    rw [length_sqsQueueUrl config.accountId name] at hlength
    omega
  | false =>
    cases isSQSArn name with
    | true => exact iff_of_false (convertSQSQueueArnToUrl_ne hurl) (fun h => nomatch h.2)
    | false => exact iff_of_true rfl ⟨rfl, rfl⟩

def arnTail (region accountId resource : String) : List Char :=
  region.toList ++ ':' :: (accountId.toList ++ ':' :: resource.toList)

theorem toList_createArn (region accountId resource : String) :
    (createArn "sqs" region accountId resource).toList =
      "arn:aws:sqs:".toList ++ arnTail region accountId resource := by
  have hcolon : ":".toList = [':'] := by decide
  have hservice : ("arn:aws:" ++ "sqs" ++ ":").toList = "arn:aws:sqs:".toList := by decide
  rw [createArn, String.toList_append, String.toList_append, String.toList_append,
    String.toList_append, String.toList_append, hservice, hcolon, arnTail]
  simp only [List.append_assoc, List.cons_append, List.nil_append]

theorem createArn_region_inj {region other accountId resource : String} :
    createArn "sqs" region accountId resource = createArn "sqs" other accountId resource ↔
      region = other := by
  constructor
  · intro heq
    have hchars := congrArg String.toList heq
    rw [toList_createArn, toList_createArn] at hchars
    exact String.toList_inj.mp (List.append_cancel_right (List.append_cancel_left hchars))
  · rintro rfl
    rfl

theorem length_createArn (region accountId resource : String) :
    resource.toList.length < (createArn "sqs" region accountId resource).toList.length := by
  rw [toList_createArn, arnTail]
  simp only [List.length_append, List.length_cons]
  omega

theorem isSQSUrl_createArn (region accountId resource : String) :
    isSQSUrl (createArn "sqs" region accountId resource) = false := by
  rw [isSQSUrl, StringUtils.startsWith, toList_createArn]
  rfl

theorem isUrl_createArn (region accountId resource : String) :
    isUrl (createArn "sqs" region accountId resource) = false := by
  rw [Bool.eq_false_iff]
  intro hurl
  have hstart := isSQSUrl_of_isUrl hurl
  rw [isSQSUrl_createArn] at hstart
  cases hstart

theorem isSQSArn_createArn (region accountId resource : String) :
    isSQSArn (createArn "sqs" region accountId resource) = true := by
  refine isSQSArn_of_startsWith (startsWith_iff.mpr ?_) (List.prefix_refl "arn".toList)
  rw [toList_createArn]
  exact ⟨_, rfl⟩

theorem toList_createSQSQueueUrl (name : String) :
    (createSQSQueueUrl config name).toList =
      "http://".toList ++ ("sqs.".toList ++ config.region.toList ++ '.' :: config.hostname.toList ++
        ':' :: config.httpPort.toList ++ '/' :: config.accountId.toList ++ '/' :: name.toList) := by
  have hdot : ".".toList = ['.'] := by decide
  have hcolon : ":".toList = [':'] := by decide
  have hslash : "/".toList = ['/'] := by decide
  have hscheme : "http://sqs.".toList = "http://".toList ++ "sqs.".toList := by decide
  rw [createSQSQueueUrl, toList_sqsQueueUrl, queueHost]
  simp only [String.toList_append, hdot, hcolon, hslash, hscheme, List.append_assoc,
    List.cons_append, List.nil_append]

theorem isSQSUrl_createSQSQueueUrl (name : String) :
    isSQSUrl (createSQSQueueUrl config name) = true := by
  rw [isSQSUrl, StringUtils.startsWith, toList_createSQSQueueUrl]
  rfl

theorem isArn_createSQSQueueUrl (name : String) :
    isArn (createSQSQueueUrl config name) = false := by
  have hstart : ∀ partition : String, partition.toList.head? = some 'a' →
      StringUtils.startsWith (createSQSQueueUrl config name) partition = false := by
    intro partition ha
    rw [Bool.eq_false_iff, Ne, startsWith_iff, toList_createSQSQueueUrl]
    intro hstart
    cases hchars : partition.toList with
    | nil =>
      rw [hchars] at ha
      cases ha
    | cons c rest =>
      rw [hchars] at ha hstart
      obtain rfl := Option.some.inj ha
      exact absurd (List.cons_prefix_cons.mp hstart).1 (by decide)
  rw [isArn, List.any_cons, List.any_cons, List.any_cons, hstart _ (by decide),
    hstart _ (by decide), hstart _ (by decide)]
  rfl

def IsOneLine (text : String) : Prop := ∀ c ∈ text.toList, isLineTerminator c = false

theorem isUrl_createSQSQueueUrl_iff {name : String} :
    isUrl (createSQSQueueUrl config name) = true ↔
      IsOneLine config.region ∧ IsOneLine config.hostname ∧ IsOneLine config.httpPort ∧
        IsOneLine config.accountId ∧ IsOneLine name := by
  have htext : "sqs.".toList = ['s', 'q', 's', '.'] := by decide
  have hservice : ∀ c ∈ "sqs.".toList, isLineTerminator c = false := by
    rw [htext]
    simp only [List.forall_mem_cons, List.not_mem_nil, false_implies, implies_true, and_true]
    exact ⟨by decide, by decide, by decide, by decide⟩
  have hdot : isLineTerminator '.' = false := by decide
  have hcolon : isLineTerminator ':' = false := by decide
  have hslash : isLineTerminator '/' = false := by decide
  rw [isUrl_http_iff (toList_createSQSQueueUrl name)]
  simp only [List.forall_mem_append, List.forall_mem_cons, hdot, hcolon, hslash, true_and,
    and_assoc, IsOneLine]
  exact and_iff_right hservice

theorem not_mem_afterLast (text : String) (delim : Char) :
    delim ∉ (StringUtils.afterLast text delim).toList := by
  rw [StringUtils.afterLast, String.toList_ofList, List.mem_reverse]
  intro hmem
  have hne := List.all_eq_true.mp List.all_takeWhile _ hmem
  rw [decide_eq_true_eq] at hne
  exact hne rfl

theorem afterLast_createSQSQueueUrl {name : String} (hslash : '/' ∉ name.toList) :
    StringUtils.afterLast (createSQSQueueUrl config name) '/' = name := by
  have hkeep : ∀ c ∈ name.toList.reverse, decide (c ≠ '/') = true := by
    intro c hc
    rw [decide_eq_true_eq]
    rintro rfl
    exact hslash (List.mem_reverse.mp hc)
  rw [StringUtils.afterLast, toList_createSQSQueueUrl, ← List.append_assoc, List.reverse_append,
    List.reverse_cons, List.append_assoc, List.takeWhile_append_of_pos hkeep,
    List.singleton_append, List.takeWhile_cons_of_neg (by decide), List.append_nil,
    List.reverse_reverse, String.ofList_toList]

end Parts

end AwsUtils

namespace Sqs

open AwsUtils

/-! ## One queue, three identifiers -/

structure DenotesSameQueue (config : Configuration) (region : String) (queue : Queue) : Prop where
  arn_of_name : convertToArn config region queue.name = queue.arn
  arn_of_arn : convertToArn config region queue.arn = queue.arn
  arn_of_url : convertToArn config region queue.url = queue.arn
  url_of_name : sanitizeSQSUrl config queue.name = queue.url
  url_of_arn : sanitizeSQSUrl config queue.arn = queue.url
  url_of_url : sanitizeSQSUrl config queue.url = queue.url
  name_of_arn : convertSQSQueueArnToName queue.arn = queue.name
  name_of_url : convertSQSQueueUrlToName queue.url = queue.name
  idempotent : ∀ queueForm ∈ [queue.name, queue.arn, queue.url],
    sanitizeSQSUrl config (sanitizeSQSUrl config queueForm) = sanitizeSQSUrl config queueForm

/-- A region in front of the account id and the name: the letters of a region up to a colon, and
then the two, each up to a colon. A region without colons is one exactly when it has no other
letters and there is a name. -/
def ReadsAsRegion (config : Configuration) (name : String) : Prop :=
  ∃ area rest, arnTail config.region config.accountId name =
      area ++ ':' :: (config.accountId.toList ++ ':' :: (name.toList ++ rest)) ∧
    (∀ c ∈ area, isArnLetter c = true) ∧ (∀ c ∈ rest.head?, c = ':') ∧ (name.toList ++ rest ≠ [])

/-- Neither a name nor the configuration can be taken for something else. -/
structure IsUnambiguous (config : Configuration) (region name : String) : Prop where
  region_eq : region = config.region
  not_url : isSQSUrl name = false
  not_arn : isSQSArn name = false
  no_slash : '/' ∉ name.toList
  no_colon : ':' ∉ name.toList
  one_line : IsOneLine config.region ∧ IsOneLine config.hostname ∧ IsOneLine config.httpPort ∧
    IsOneLine config.accountId ∧ IsOneLine name
  account : IsAccount config.accountId.toList
  reads : ReadsAsRegion config name

section Identifiers

variable {config : Configuration} {region name : String}

theorem createArn_ne_empty (area accountId resource : String) :
    createArn "sqs" area accountId resource ≠ "" := by
  intro heq
  have hlength := length_createArn area accountId resource
  rw [heq] at hlength
  exact absurd hlength (Nat.not_lt_zero _)

theorem isArn_iff_reads
    (hline : ∀ c ∈ arnTail config.region config.accountId name, isLineTerminator c = false) :
    (isArn (createSQSQueueArn config name) = true ∧
      convertSQSQueueArnToName (createSQSQueueArn config name) = name ∧
        convertSQSQueueArnToUrl config (createSQSQueueArn config name) =
          createSQSQueueUrl config name) ↔
      ':' ∉ name.toList ∧ IsAccount config.accountId.toList ∧ ReadsAsRegion config name := by
  have hchars := toList_createArn config.region config.accountId name
  have hnotUrl := isUrl_createArn config.region config.accountId name
  have hne := createArn_ne_empty config.region config.accountId name
  rw [createSQSQueueArn, isArn_eq hchars]
  constructor
  · rintro ⟨harn, hname, hurl⟩
    obtain ⟨area, account, resource, htail, hletters, haccount, hresource⟩ :=
      isRegionAndTail_iff.mp harn
    obtain ⟨first, rest, rfl, hfirst, hrest⟩ := exists_first_part ':' resource
    obtain ⟨more, hsplit⟩ := split_arn (htail ▸ hchars) (not_colon_of_isArnLetter hletters)
      (not_colon_of_isAccount haccount) hfirst hrest
    rw [← isArn_eq hchars] at harn
    rw [convertSQSQueueArnToName, if_pos harn, hsplit] at hname
    rw [convertSQSQueueArnToUrl, if_neg hne, hnotUrl, if_neg Bool.false_ne_true, if_pos harn,
      hsplit] at hurl
    obtain rfl : String.ofList first = name := hname
    have haccountId : account = config.accountId.toList := by
      have hurlChars := congrArg String.toList hurl
      rw [createSQSQueueUrl] at hurlChars
      change (sqsQueueUrl config _ _).toList = _ at hurlChars
      rw [toList_sqsQueueUrl, toList_sqsQueueUrl, String.toList_ofList] at hurlChars
      exact List.append_cancel_left (List.append_cancel_right hurlChars)
    subst haccountId
    rw [String.toList_ofList]
    refine ⟨hfirst, haccount, area, rest, ?_, hletters, hrest, ?_⟩
    · rwa [String.toList_ofList]
    · rw [String.toList_ofList]
      exact hresource.1
  · rintro ⟨hcolon, haccount, area, rest, htail, hletters, hrest, hnonempty⟩
    have hresource : IsResource (name.toList ++ rest) := by
      refine ⟨hnonempty, fun c hc => hline c ?_⟩
      rw [htail]
      simp only [List.mem_append, List.mem_cons] at hc ⊢
      exact .inr (.inr (.inr (.inr hc)))
    have harn : isRegionAndTail (arnTail config.region config.accountId name) = true :=
      isRegionAndTail_iff.mpr ⟨area, _, _, htail, hletters, haccount, hresource⟩
    obtain ⟨more, hsplit⟩ := split_arn (htail ▸ hchars) (not_colon_of_isArnLetter hletters)
      (not_colon_of_isAccount haccount) hcolon hrest
    refine ⟨harn, ?_, ?_⟩
    · rw [convertSQSQueueArnToName, isArn_eq hchars, if_pos harn, hsplit]
      exact String.ofList_toList
    · rw [convertSQSQueueArnToUrl, if_neg hne, hnotUrl, if_neg Bool.false_ne_true,
        isArn_eq hchars, if_pos harn, hsplit]
      change sqsQueueUrl config (String.ofList _) (String.ofList _) = _
      rw [String.ofList_toList, String.ofList_toList]
      rfl

theorem isUrl_of_not_isSQSUrl (hname : isSQSUrl name = false) : isUrl name = false := by
  rw [Bool.eq_false_iff]
  intro hurl
  rw [isSQSUrl_of_isUrl hurl] at hname
  cases hname

theorem isArn_of_not_isSQSArn (hname : isSQSArn name = false) : isArn name = false := by
  rw [Bool.eq_false_iff]
  intro harn
  rw [isSQSArn_of_isArn harn] at hname
  cases hname

theorem convertToArn_name_iff (hurl : isSQSUrl name = false) (harn : isSQSArn name = false) :
    convertToArn config region name = createSQSQueueArn config name ↔ region = config.region := by
  rw [convertToArn, isUrl_of_not_isSQSUrl hurl, isArn_of_not_isSQSArn harn]
  exact createArn_region_inj

theorem convertToArn_arn_iff :
    convertToArn config region (createSQSQueueArn config name) = createSQSQueueArn config name ↔
      isArn (createSQSQueueArn config name) = true := by
  rw [convertToArn, createSQSQueueArn, isUrl_createArn, if_neg Bool.false_ne_true]
  split
  next harn => exact iff_of_true rfl harn
  next harn =>
    refine iff_of_false (fun heq => ?_) harn
    have hlength := length_createArn region config.accountId
      (createArn "sqs" config.region config.accountId name)
    rw [heq] at hlength
    exact absurd hlength (Nat.lt_irrefl _)

theorem convertToArn_url_iff (hslash : '/' ∉ name.toList) :
    convertToArn config config.region (createSQSQueueUrl config name) =
        createSQSQueueArn config name ↔ isUrl (createSQSQueueUrl config name) = true := by
  rw [convertToArn, isArn_createSQSQueueUrl, afterLast_createSQSQueueUrl hslash]
  split
  next hurl => exact iff_of_true rfl hurl
  next hurl =>
    refine iff_of_false (fun heq => ?_) hurl
    rw [if_neg Bool.false_ne_true] at heq
    have hname : createSQSQueueUrl config name = name := createArn_inj.mp heq
    have hlength := congrArg (fun text => text.toList.length) hname
    change (sqsQueueUrl config config.accountId name).toList.length = name.toList.length at hlength
    rw [length_sqsQueueUrl config.accountId name] at hlength
    omega

theorem sanitizeSQSUrl_url : sanitizeSQSUrl config (createSQSQueueUrl config name) =
    createSQSQueueUrl config name := by
  rw [sanitizeSQSUrl, isSQSUrl_createSQSQueueUrl]
  rfl

theorem sanitizeSQSUrl_arn : sanitizeSQSUrl config (createSQSQueueArn config name) =
    convertSQSQueueArnToUrl config (createSQSQueueArn config name) := by
  rw [sanitizeSQSUrl, createSQSQueueArn, isSQSUrl_createArn, isSQSArn_createArn]
  rfl

theorem convertSQSQueueUrlToName_iff :
    convertSQSQueueUrlToName (createSQSQueueUrl config name) = name ↔ '/' ∉ name.toList := by
  constructor
  · intro hname
    rw [← hname]
    exact not_mem_afterLast _ _
  · exact afterLast_createSQSQueueUrl

theorem arnTail_oneLine (hregion : IsOneLine config.region) (haccount : IsOneLine config.accountId)
    (hname : IsOneLine name) :
    ∀ c ∈ arnTail config.region config.accountId name, isLineTerminator c = false := by
  have hcolon : isLineTerminator ':' = false := by decide
  simp only [arnTail, List.forall_mem_append, List.forall_mem_cons, hcolon, true_and]
  exact ⟨hregion, haccount, hname⟩

theorem created_identifiers {now : Time} {request : Dto.CreateQueueRequest} {queue : Queue}
    (hcreated : Mapper.createQueueRequestToEntity config now request = .ok queue) :
    queue.name = request.queueName ∧ queue.arn = createSQSQueueArn config request.queueName ∧
      queue.url = createSQSQueueUrl config request.queueName := by
  obtain ⟨attributes, -, hqueue⟩ := bind_eq_ok.mp hcreated
  obtain rfl := Except.ok.inj hqueue
  exact ⟨rfl, rfl, rfl⟩

/-- The three forms of a created queue denote it exactly when its region is the configured one and
neither its name nor the configuration can be taken for something else. -/
theorem denotesSameQueue_iff {now : Time} {request : Dto.CreateQueueRequest} {queue : Queue}
    (hcreated : Mapper.createQueueRequestToEntity config now request = .ok queue) :
    DenotesSameQueue config request.region queue ↔
      IsUnambiguous config request.region request.queueName := by
  obtain ⟨hname, harn, hurl⟩ := created_identifiers hcreated
  generalize request.region = region at *
  generalize request.queueName = name at *
  constructor
  · rintro ⟨harnName, harnArn, harnUrl, hurlName, hurlArn, -, hnameArn, hnameUrl, -⟩
    rw [hname, harn] at harnName hnameArn
    rw [harn] at harnArn
    rw [harn, hurl] at harnUrl hurlArn
    rw [hname, hurl] at hurlName hnameUrl
    obtain ⟨hnotUrl, hnotArn⟩ := sanitizeSQSUrl_eq_url_iff.mp hurlName
    obtain rfl := (convertToArn_name_iff hnotUrl hnotArn).mp harnName
    have hslash := convertSQSQueueUrlToName_iff.mp hnameUrl
    have hline := isUrl_createSQSQueueUrl_iff.mp ((convertToArn_url_iff hslash).mp harnUrl)
    obtain ⟨hcolon, haccount, hreads⟩ :=
      (isArn_iff_reads (arnTail_oneLine hline.1 hline.2.2.2.1 hline.2.2.2.2)).mp
        ⟨convertToArn_arn_iff.mp harnArn, hnameArn, sanitizeSQSUrl_arn ▸ hurlArn⟩
    exact ⟨rfl, hnotUrl, hnotArn, hslash, hcolon, hline, haccount, hreads⟩
  · rintro ⟨rfl, hnotUrl, hnotArn, hslash, hcolon, hline, haccount, hreads⟩
    obtain ⟨hisArn, hnameArn, hurlArn⟩ :=
      (isArn_iff_reads (arnTail_oneLine hline.1 hline.2.2.2.1 hline.2.2.2.2)).mpr
        ⟨hcolon, haccount, hreads⟩
    have hurlName : sanitizeSQSUrl config name = createSQSQueueUrl config name :=
      sanitizeSQSUrl_eq_url_iff.mpr ⟨hnotUrl, hnotArn⟩
    rw [← sanitizeSQSUrl_arn] at hurlArn
    refine ⟨?_, ?_, ?_, ?_, ?_, ?_, ?_, ?_, ?_⟩
    · rw [hname, harn]
      exact (convertToArn_name_iff hnotUrl hnotArn).mpr rfl
    · rw [harn]
      exact convertToArn_arn_iff.mpr hisArn
    · rw [harn, hurl]
      exact (convertToArn_url_iff hslash).mpr (isUrl_createSQSQueueUrl_iff.mpr hline)
    · rw [hname, hurl, hurlName]
    · rw [harn, hurl, hurlArn]
    · rw [hurl, sanitizeSQSUrl_url]
    · rw [hname, harn, hnameArn]
    · rw [hname, hurl]
      exact convertSQSQueueUrlToName_iff.mpr hslash
    · rw [hname, harn, hurl]
      simp only [List.forall_mem_cons, List.not_mem_nil, false_implies, implies_true, hurlName,
        hurlArn, sanitizeSQSUrl_url, and_self]

theorem exists_created (config : Configuration) (now : Time) {request : Dto.CreateQueueRequest}
    (hattributes : request.attributes = ∅) :
    ∃ queue, Mapper.createQueueRequestToEntity config now request = .ok queue := by
  have hempty : (∅ : StringMap String).toList = [] := by
    rw [← List.isEmpty_iff, Std.ExtTreeMap.isEmpty_toList]
    exact Std.ExtTreeMap.isEmpty_empty
  rw [Mapper.createQueueRequestToEntity, hattributes, hempty]
  exact ⟨_, rfl⟩

end Identifiers

def localConfiguration : Configuration where
  region := "eu-central-1"
  accountId := "000000000000"
  hostname := "localhost"
  httpPort := "4566"

def queueRequest (queueName : String) : Dto.CreateQueueRequest where
  region := "eu-central-1"
  queueName := queueName

theorem denotesSameQueue_orders :
    ∃ queue, Mapper.createQueueRequestToEntity localConfiguration 0 (queueRequest "orders") =
        .ok queue ∧
      (DenotesSameQueue localConfiguration "eu-central-1" queue ↔
        IsUnambiguous localConfiguration "eu-central-1" "orders") := by
  obtain ⟨queue, hcreated⟩ := @exists_created localConfiguration 0 (queueRequest "orders") rfl
  exact ⟨queue, hcreated, denotesSameQueue_iff hcreated⟩

/-- The name of a queue with "arn" in it has no URL. -/
theorem not_denotesSameQueue_learning :
    ∃ queue, Mapper.createQueueRequestToEntity localConfiguration 0 (queueRequest "learning") =
        .ok queue ∧
      ¬DenotesSameQueue localConfiguration "eu-central-1" queue := by
  obtain ⟨queue, hcreated⟩ := @exists_created localConfiguration 0 (queueRequest "learning") rfl
  obtain ⟨hname, -, hurl⟩ := created_identifiers hcreated
  refine ⟨queue, hcreated, fun hdenotes => ?_⟩
  have hurlName := hdenotes.url_of_name
  rw [hname, hurl] at hurlName
  have hnotArn := (sanitizeSQSUrl_eq_url_iff.mp hurlName).2
  have harn : isSQSArn "learning" = true := by
    rw [isSQSArn, StringUtils.containsIgnoreCase, decide_eq_true_eq]
    exact ⟨['l', 'e'], ['i', 'n', 'g'], by decide⟩
  change isSQSArn "learning" = false at hnotArn
  rw [harn] at hnotArn
  cases hnotArn

end Sqs

end AwsMock
