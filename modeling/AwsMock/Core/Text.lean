import Mathlib.Data.List.Infix
import AwsMock.Core.Environment

/-! # Strings and resource identifiers

The string helpers of `StringUtils` and the ARN and URL functions of `AwsUtils`
that the queue service rests on.
-/

namespace AwsMock

namespace StringUtils

def contains (s1 s2 : String) : Bool := decide (s2.toList <:+: s1.toList)

def startsWith (s1 s2 : String) : Bool := s2.toList.isPrefixOf s1.toList

/-- `boost::split` on a single delimiter: empty parts are kept. -/
def split (s : String) (delim : Char) : List String := (s.toList.splitOn delim).map String.ofList

/-- The part after the last occurrence of a character, or all of the string. -/
def afterLast (s : String) (delim : Char) : String :=
  String.ofList (s.toList.reverse.takeWhile (· ≠ delim)).reverse

/-- `boost::replace_all`: occurrences are looked for from the left, and what was
replaced is not looked at again. `skipped` characters belong to the last one. -/
def replaceAll (pattern replacement : List Char) : Nat → List Char → List Char
  | _, [] => []
  | skipped + 1, _ :: rest => replaceAll pattern replacement skipped rest
  | 0, c :: rest =>
    if pattern ≠ [] ∧ pattern.isPrefixOf (c :: rest) then
      replacement ++ replaceAll pattern replacement (pattern.length - 1) rest
    else c :: replaceAll pattern replacement 0 rest

def replaceCopy (target pattern replacement : String) : String :=
  String.ofList (replaceAll pattern.toList replacement.toList 0 target.toList)

section Replacing

variable {pattern replacement : List Char}

theorem replaceAll_nil (skipped : Nat) : replaceAll pattern replacement skipped [] = [] := by
  cases skipped <;> rfl

theorem isPrefixOf_append_cons {text rest : List Char} {c : Char} (hc : c ∉ pattern) :
    pattern.isPrefixOf (text ++ c :: rest) = pattern.isPrefixOf text := by
  induction pattern generalizing text with
  | nil =>
    rw [List.isPrefixOf_nil_left, List.isPrefixOf_nil_left]
  | cons p pattern ih =>
    rw [List.mem_cons, not_or] at hc
    obtain ⟨hne, hrest⟩ := hc
    cases text with
    | nil =>
      rw [List.nil_append, List.isPrefixOf_cons_cons, List.isPrefixOf_cons_nil, Bool.and_eq_false_iff]
      exact .inl (beq_false_of_ne (Ne.symm hne))
    | cons d text => rw [List.cons_append, List.isPrefixOf_cons_cons, List.isPrefixOf_cons_cons, ih hrest]

theorem replaceAll_append_cons {text rest : List Char} {c : Char} (hc : c ∉ pattern)
    {skipped : Nat} (hskipped : skipped ≤ text.length) :
    replaceAll pattern replacement skipped (text ++ c :: rest) =
      replaceAll pattern replacement skipped text ++ c :: replaceAll pattern replacement 0 rest := by
  induction text generalizing skipped with
  | nil =>
    obtain rfl : skipped = 0 := Nat.le_zero.mp hskipped
    have hnot : ¬(pattern ≠ [] ∧ pattern.isPrefixOf (c :: rest) = true) := by
      rintro ⟨hnonempty, hprefix⟩
      have hempty := @isPrefixOf_append_cons pattern [] rest c hc
      rw [List.nil_append, hprefix] at hempty
      cases pattern with
      | nil => exact hnonempty rfl
      | cons p pattern => cases hempty
    rw [List.nil_append, replaceAll_nil, replaceAll, if_neg hnot, List.nil_append]
  | cons d text ih =>
    cases skipped with
    | succ skipped => exact ih (Nat.le_of_succ_le_succ hskipped)
    | zero =>
      have hprefix := @isPrefixOf_append_cons pattern (d :: text) rest c hc
      rw [List.cons_append, replaceAll, replaceAll, ← List.cons_append, hprefix]
      split
      next hfound =>
        have hlength : pattern.length ≤ (d :: text).length :=
          (List.isPrefixOf_iff_prefix.mp hfound.2).length_le
        have hleft : pattern.length - 1 ≤ text.length := by
          rw [List.length_cons] at hlength
          omega
        rw [ih hleft, List.append_assoc]
      next => rw [ih (Nat.zero_le _), List.cons_append]

theorem mem_replaceAll {text : List Char} {skipped : Nat} {c : Char}
    (hmem : c ∈ replaceAll pattern replacement skipped text) : c ∈ text ∨ c ∈ replacement := by
  induction text generalizing skipped with
  | nil =>
    rw [replaceAll_nil] at hmem
    cases hmem
  | cons d text ih =>
    have hrest : ∀ {count : Nat}, c ∈ replaceAll pattern replacement count text →
        c ∈ d :: text ∨ c ∈ replacement := fun hother =>
      (ih hother).imp_left (List.mem_cons_of_mem d)
    cases skipped with
    | succ skipped => exact hrest hmem
    | zero =>
      rw [replaceAll] at hmem
      split at hmem
      next =>
        rcases List.mem_append.mp hmem with hmem | hmem
        · exact .inr hmem
        · exact hrest hmem
      next =>
        rcases List.mem_cons.mp hmem with rfl | hmem
        · exact .inl List.mem_cons_self
        · exact hrest hmem

end Replacing

end StringUtils

namespace AwsUtils

/-- What `.` does not match in a regular expression over bytes. -/
def isLineTerminator (c : Char) : Bool := c = '\n' || c = '\r'

/-- `^https?:\/\/.*$` -/
def isUrl (value : String) : Bool :=
  let scheme := if StringUtils.startsWith value "https://" then some 8
    else if StringUtils.startsWith value "http://" then some 7 else none
  match scheme with
  | some length => (value.toList.drop length).all fun c => !isLineTerminator c
  | none => false

/-- `[a-z0-9-]` -/
def isArnLetter (c : Char) : Bool := ('a' ≤ c && c ≤ 'z') || c.isDigit || c = '-'

/-- `(\d{12})?:.+$` -/
def isArnTail (text : List Char) : Bool :=
  let isResource : List Char → Bool
    | ':' :: rest => !rest.isEmpty && rest.all fun c => !isLineTerminator c
    | _ => false
  isResource text ||
    ((text.take 12).length = 12 && (text.take 12).all Char.isDigit && isResource (text.drop 12))

/-- `^arn:(aws|aws-cn|aws-us-gov):[a-z0-9-]+:[a-z0-9-]*:(\d{12})?:.+$` -/
def isArn (value : String) : Bool :=
  ["arn:aws:", "arn:aws-cn:", "arn:aws-us-gov:"].any fun partition =>
    StringUtils.startsWith value partition &&
      let afterPartition := value.toList.drop partition.length
      let service := afterPartition.takeWhile isArnLetter
      match afterPartition.dropWhile isArnLetter with
      | ':' :: afterService =>
        !service.isEmpty &&
          match afterService.dropWhile isArnLetter with
          | ':' :: afterRegion => isArnTail afterRegion
          | _ => false
      | _ => false

def createArn (service region accountId resourceId : String) : String :=
  "arn:aws:" ++ service ++ ":" ++ region ++ ":" ++ accountId ++ ":" ++ resourceId

variable (config : Configuration)

def sqsQueueUrl (accountId queueName : String) : String :=
  "http://sqs." ++ config.region ++ "." ++ config.hostname ++ ":" ++ config.httpPort ++ "/" ++
    accountId ++ "/" ++ queueName

def createSQSQueueUrl (queueName : String) : String :=
  sqsQueueUrl config config.accountId queueName

/-- The one-argument `CreateSQSQueueArn`: in the configured region. -/
def createSQSQueueArn (queueName : String) : String :=
  createArn "sqs" config.region config.accountId queueName

/-- The two-argument `CreateSQSQueueArn`: in a given region. -/
def createSQSQueueArnIn (region queueName : String) : String :=
  createArn "sqs" region config.accountId queueName

def convertSQSQueueUrlToName (queueUrl : String) : String := StringUtils.afterLast queueUrl '/'

def convertToArn (region input : String) : String :=
  if isUrl input then createArn "sqs" region config.accountId (StringUtils.afterLast input '/')
  else if isArn input then input
  else createArn "sqs" region config.accountId input

def convertSQSQueueArnToName (input : String) : String :=
  if isArn input then
    match StringUtils.split input ':' with
    | _ :: _ :: _ :: _ :: _ :: name :: _ => name
    | _ => ""
  else ""

def convertSQSQueueArnToUrl (input : String) : String :=
  if input = "" then ""
  else if isUrl input then input
  else if isArn input then
    match StringUtils.split input ':' with
    | _ :: _ :: _ :: _ :: accountId :: queueName :: _ => sqsQueueUrl config accountId queueName
    | _ => ""
  else ""

variable {config}

theorem createArn_inj {service region accountId left right : String} :
    createArn service region accountId left = createArn service region accountId right ↔
      left = right := by
  simp [createArn]

end AwsUtils

end AwsMock
