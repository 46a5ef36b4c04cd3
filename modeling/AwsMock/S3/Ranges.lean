import AwsMock.Core.Integers
import AwsMock.S3.Entity

/-! # Ranges of objects

What the handler answers to a request for an object with a `Range` field: how the field is read,
and which bytes of the file are sent. The largest array that can be allotted is a parameter.
-/

namespace AwsMock.S3

open Foundation Machine Http HttpUtils

/-! ## The handler -/

/-- An element of a vector. There is no check that it exists. -/
def piece (text : Bytes) (delim : UInt8) (index : Nat) : Run Bytes :=
  match (Bytes.split text delim)[index]? with
  | some part => .ok part
  | none => .error .outOfRange

structure Range where
  min : Int
  max : Int
  size : Int
deriving DecidableEq

def readNumbers (parts : Bytes) : Run Range := do
  let min ← Bytes.stol (← piece parts 45 0)
  let max ← Bytes.stol (← piece parts 45 1)
  let size ← long ((← long (max - min)) + 1)
  return ⟨min, max, size⟩

/-- `GetRange` for the value of the field. With a total the numbers are looked for in what comes
before the first `/` of the whole value. -/
def getRange (rangeStr : Bytes) : Run Range := do
  let headerValue ← piece rangeStr 61 1
  if 47 ∈ headerValue then
    let range ← readNumbers (← piece rangeStr 47 0)
    let _total ← Bytes.stol (← piece headerValue 47 1)
    return range
  else readNumbers headerValue

/-- `std::to_string` of a number with a sign. -/
def toText (n : Int) : Bytes :=
  if n < 0 then 45 :: Bytes.decimal n.natAbs else Bytes.decimal n.natAbs

/-- A byte that was not set before it was sent is `none`. -/
structure PartialContent where
  contentRange : Bytes
  contentLength : Bytes
  body : List (Option UInt8)
deriving DecidableEq

inductive Answer where
  | error (status : Nat)
  | partialContent (response : PartialContent)
deriving DecidableEq

def bytesAt (content : Bytes) (min size : Int) : Bytes :=
  if 0 ≤ min then (content.drop min.toNat).take size.toNat else []

section Answers

variable (limit : Int)

/-- `SendResponse` for a range of a file: `size` bytes are sent of a new array. -/
def sendResponse (content : Bytes) (range : Range) : Run Answer :=
  if range.size < 0 ∨ limit < range.size then .error .exception
  else
    let buffer := bytesAt content range.min range.size
    .ok (.partialContent
      { contentRange := ascii "bytes " ++ toText range.min ++ ascii "-" ++ toText range.max ++
          ascii "/" ++ toText content.length
        contentLength := toText range.size
        body := buffer.map some ++ List.replicate (range.size.toNat - buffer.length) none })

inductive Command where
  | getObject
  | getObjectRange
deriving DecidableEq

/-- The file that the service has found, whose size is that of the object. -/
structure StoredObject where
  content : Bytes
  storageClass : StorageClass
deriving DecidableEq

/-- What the handler does when the request has the field. An exception becomes an answer. -/
def handleGetRequest (command : Command) (object : StoredObject) (rangeStr : Bytes) :
    Run Answer :=
  let answer : Run Answer := do
    let range ← getRange rangeStr
    if command = .getObject ∧ object.storageClass ≠ .standard then return .error 403
    sendResponse limit object.content range
  match answer with
  | .error .exception => .ok (.error 500)
  | answer => answer

end Answers

/-! ## Ranges of bytes -/

structure Numeral where
  digits : Bytes
  nonempty : digits ≠ []
  isNumber : ∀ c ∈ digits, Bytes.isDigit c = true

namespace Numeral

def value (numeral : Numeral) : Nat := Bytes.magnitude numeral.digits

def ofDigit (c : UInt8) (hdigit : Bytes.isDigit c = true) : Numeral where
  digits := [c]
  nonempty := List.cons_ne_nil _ _
  isNumber d hmem := by
    rw [List.mem_singleton.mp hmem]
    exact hdigit

end Numeral

inductive ByteRange where
  | fromTo (first last : Numeral)
  | startingAt (first : Numeral)
  | suffix (length : Numeral)

namespace ByteRange

def text : ByteRange → Bytes
  | fromTo first last => ascii "bytes=" ++ (first.digits ++ 45 :: last.digits)
  | startingAt first => ascii "bytes=" ++ (first.digits ++ [45])
  | suffix length => ascii "bytes=" ++ 45 :: length.digits

/-- The first and the last byte of so many, when a range can be satisfied. -/
def positions (length : Nat) : ByteRange → Option (Nat × Nat)
  | fromTo first last =>
    if first.value ≤ last.value ∧ first.value < length then
      some (first.value, min last.value (length - 1))
    else none
  | startingAt first => if first.value < length then some (first.value, length - 1) else none
  | suffix count =>
    if 0 < count.value ∧ 0 < length then some (length - count.value, length - 1) else none

end ByteRange

def slice (content : Bytes) (first last : Nat) : Bytes :=
  (content.drop first).take (last + 1 - first)

def sliceAnswer (content : Bytes) (first last : Nat) : Answer :=
  .partialContent
    { contentRange := ascii "bytes " ++ Bytes.decimal first ++ ascii "-" ++ Bytes.decimal last ++
        ascii "/" ++ Bytes.decimal content.length
      contentLength := Bytes.decimal (last + 1 - first)
      body := (slice content first last).map some }

def Satisfiable (length : Nat) (rangeStr : Bytes) : Prop :=
  ∃ range : ByteRange, rangeStr = range.text ∧ (range.positions length).isSome

/-! ## Reading the field -/

section Reading

variable {limit : Int} {command : Command} {object : StoredObject} {rangeStr front back : Bytes}

theorem piece_split {parts : List Bytes} {delim : UInt8} (hparts : ∀ part ∈ parts, delim ∉ part)
    (hne : parts ≠ []) (index : Nat) :
    piece ([delim].intercalate parts) delim index =
      match parts[index]? with
      | some part => .ok part
      | none => .error .outOfRange := by
  rw [piece, Bytes.split, List.splitOn_intercalate delim hparts hne]

theorem getRange_bytes (hunit : 61 ∉ back) (htotal : 47 ∉ back) :
    getRange (ascii "bytes=" ++ back) = readNumbers back := by
  have hparts : ∀ part ∈ [ascii "bytes", back], (61 : UInt8) ∉ part := by
    intro part hmem
    rcases List.mem_cons.mp hmem with rfl | hmem
    · decide
    · rwa [List.mem_singleton.mp hmem]
  have htext : ascii "bytes=" ++ back = [61].intercalate [ascii "bytes", back] := by
    rw [List.intercalate_cons_cons, List.intercalate_singleton]
    rfl
  rw [getRange, htext, piece_split hparts (List.cons_ne_nil _ _)]
  dsimp only [List.getElem?_cons_succ, List.getElem?_cons_zero]
  rw [ok_bind, if_neg htotal]

theorem readNumbers_dash (hfront : 45 ∉ front) (hback : 45 ∉ back) :
    readNumbers (front ++ 45 :: back) = do
      let min ← Bytes.stol front
      let max ← Bytes.stol back
      let size ← long ((← long (max - min)) + 1)
      return ⟨min, max, size⟩ := by
  have hparts : ∀ part ∈ [front, back], (45 : UInt8) ∉ part := by
    intro part hmem
    rcases List.mem_cons.mp hmem with rfl | hmem
    · exact hfront
    · rwa [List.mem_singleton.mp hmem]
  have htext : front ++ 45 :: back = [45].intercalate [front, back] := by
    rw [List.intercalate_cons_cons, List.intercalate_singleton, List.append_assoc]
    rfl
  rw [readNumbers, htext, piece_split hparts (List.cons_ne_nil _ _),
    piece_split hparts (List.cons_ne_nil _ _)]
  rfl

theorem Numeral.notMem (numeral : Numeral) {c : UInt8} (hc : Bytes.isDigit c = false) :
    c ∉ numeral.digits := by
  intro hmem
  rw [numeral.isNumber c hmem] at hc
  cases hc

theorem Numeral.stol (numeral : Numeral) : Bytes.stol numeral.digits =
    if numeral.value < 9223372036854775808 then .ok ↑numeral.value else .error .exception := by
  have hread := @Bytes.stol_digits numeral.digits [] numeral.nonempty numeral.isNumber
    (fun _ hmem => nomatch hmem)
  rwa [List.append_nil] at hread

theorem stol_nil : Bytes.stol [] = .error .exception := rfl

theorem handleGetRequest_eq_error :
    (∃ status, handleGetRequest limit command object rangeStr = .ok (.error status)) ↔
      getRange rangeStr = .error .exception ∨ ∃ range, getRange rangeStr = .ok range ∧
        ((command = .getObject ∧ object.storageClass ≠ .standard) ∨ range.size < 0 ∨
          limit < range.size) := by
  cases hrange : getRange rangeStr with
  | error fault =>
    rw [handleGetRequest, hrange]
    cases fault with
    | exception => exact iff_of_true ⟨500, rfl⟩ (.inl rfl)
    | overflow =>
      refine iff_of_false ?_ ?_
      · rintro ⟨status, heq⟩
        cases heq
      · rintro (heq | ⟨range, heq, -⟩)
        · cases heq
        · cases heq
    | outOfRange =>
      refine iff_of_false ?_ ?_
      · rintro ⟨status, heq⟩
        cases heq
      · rintro (heq | ⟨range, heq, -⟩)
        · cases heq
        · cases heq
  | ok range =>
    rw [handleGetRequest, hrange, ok_bind]
    by_cases harchived : command = .getObject ∧ object.storageClass ≠ .standard
    · rw [if_pos harchived]
      exact iff_of_true ⟨403, rfl⟩ (.inr ⟨range, rfl, .inl harchived⟩)
    · rw [if_neg harchived, sendResponse]
      by_cases hsize : range.size < 0 ∨ limit < range.size
      · rw [if_pos hsize]
        exact iff_of_true ⟨500, rfl⟩ (.inr ⟨range, rfl, .inr hsize⟩)
      · rw [if_neg hsize]
        refine iff_of_false ?_ ?_
        · rintro ⟨status, heq⟩
          cases heq
        · rintro (heq | ⟨other, heq, hother⟩)
          · cases heq
          · obtain rfl := Except.ok.inj heq
            rcases hother with hother | hother
            · exact harchived hother
            · exact hsize hother

theorem handleGetRequest_eq_partialContent {response : PartialContent} :
    handleGetRequest limit command object rangeStr = .ok (.partialContent response) ↔
      ∃ range, getRange rangeStr = .ok range ∧
        ¬(command = .getObject ∧ object.storageClass ≠ .standard) ∧
        sendResponse limit object.content range = .ok (.partialContent response) := by
  cases hrange : getRange rangeStr with
  | error fault =>
    rw [handleGetRequest, hrange]
    refine iff_of_false ?_ ?_
    · intro heq
      cases fault with
      | exception => cases heq
      | overflow => cases heq
      | outOfRange => cases heq
    · rintro ⟨range, heq, -⟩
      cases heq
  | ok range =>
    rw [handleGetRequest, hrange, ok_bind]
    by_cases harchived : command = .getObject ∧ object.storageClass ≠ .standard
    · rw [if_pos harchived]
      refine iff_of_false (fun heq => nomatch heq) ?_
      rintro ⟨other, -, hnot, -⟩
      exact hnot harchived
    · rw [if_neg harchived]
      have hcaught : ∀ run : Run Answer,
          (match run with
            | .error .exception => .ok (.error 500)
            | answer => answer) = Except.ok (.partialContent response) ↔
            run = .ok (.partialContent response) := by
        intro run
        cases run with
        | ok answer => exact Iff.rfl
        | error fault =>
          cases fault with
          | exception => exact iff_of_false (fun heq => nomatch heq) (fun heq => nomatch heq)
          | overflow => exact Iff.rfl
          | outOfRange => exact Iff.rfl
      refine (hcaught _).trans ⟨fun heq => ⟨range, rfl, harchived, heq⟩, ?_⟩
      rintro ⟨other, hother, -, heq⟩
      rwa [Except.ok.inj hother]

end Reading

/-! ## Ranges that can be satisfied -/

section Satisfying

variable {limit : Int} {command : Command} {object : StoredObject}

variable {range : Range}

theorem getRange_fromTo {first last : Numeral} :
    getRange (ByteRange.fromTo first last).text = .ok range ↔
      first.value < 9223372036854775808 ∧ last.value < 9223372036854775808 ∧
        (last.value : Int) - first.value + 1 < 9223372036854775808 ∧
        range = ⟨first.value, last.value, last.value - first.value + 1⟩ := by
  have hunit : 61 ∉ first.digits ++ 45 :: last.digits := by
    simp [first.notMem, last.notMem, Bytes.isDigit]
  have htotal : 47 ∉ first.digits ++ 45 :: last.digits := by
    simp [first.notMem, last.notMem, Bytes.isDigit]
  rw [ByteRange.text, getRange_bytes hunit htotal,
    readNumbers_dash (first.notMem rfl) (last.notMem rfl), first.stol, last.stol]
  constructor
  · intro hok
    obtain ⟨min, hmin, hok⟩ := bind_eq_ok.mp hok
    obtain ⟨max, hmax, hok⟩ := bind_eq_ok.mp hok
    obtain ⟨difference, hdifference, hok⟩ := bind_eq_ok.mp hok
    obtain ⟨size, hsize, hok⟩ := bind_eq_ok.mp hok
    split at hmin
    next hfirst =>
      split at hmax
      next hlast =>
        obtain rfl := Except.ok.inj hmin
        obtain rfl := Except.ok.inj hmax
        obtain ⟨-, rfl⟩ := long_eq_ok.mp hdifference
        obtain ⟨hfits, rfl⟩ := long_eq_ok.mp hsize
        exact ⟨hfirst, hlast, hfits.2, (Except.ok.inj hok).symm⟩
      next => cases hmax
    next => cases hmin
  · rintro ⟨hfirst, hlast, hfits, rfl⟩
    have hdifference : long ((last.value : Int) - first.value) = .ok (last.value - first.value) :=
      long_eq_ok.mpr ⟨⟨by omega, by omega⟩, rfl⟩
    have hsize : long ((last.value : Int) - first.value + 1) =
        .ok (last.value - first.value + 1) := long_eq_ok.mpr ⟨⟨by omega, by omega⟩, rfl⟩
    rw [if_pos hfirst, ok_bind, if_pos hlast, ok_bind, hdifference, ok_bind, hsize]
    rfl

theorem getRange_startingAt {first : Numeral} :
    getRange (ByteRange.startingAt first).text ≠ .ok range := by
  have hunit : 61 ∉ first.digits ++ [45] := by
    simp [first.notMem, Bytes.isDigit]
  have htotal : 47 ∉ first.digits ++ [45] := by
    simp [first.notMem, Bytes.isDigit]
  rw [ByteRange.text, getRange_bytes hunit htotal,
    readNumbers_dash (first.notMem rfl) (List.not_mem_nil)]
  intro hok
  obtain ⟨min, -, hok⟩ := bind_eq_ok.mp hok
  rw [stol_nil] at hok
  cases hok

theorem getRange_suffix {length : Numeral} :
    getRange (ByteRange.suffix length).text ≠ .ok range := by
  have hunit : 61 ∉ 45 :: length.digits := by
    simp [length.notMem, Bytes.isDigit]
  have htotal : 47 ∉ 45 :: length.digits := by
    simp [length.notMem, Bytes.isDigit]
  rw [ByteRange.text, getRange_bytes hunit htotal, ← List.nil_append (45 :: length.digits),
    readNumbers_dash List.not_mem_nil (length.notMem rfl), stol_nil]
  rintro ⟨⟩

theorem toText_natCast (n : Nat) : toText n = Bytes.decimal n := by
  rw [toText, if_neg (by omega), Int.natAbs_natCast]

theorem sendResponse_eq_slice {content : Bytes} {first last : Nat} (hle : first ≤ last)
    (hfirst : first < content.length) :
    sendResponse limit content ⟨first, last, last - first + 1⟩ =
        .ok (sliceAnswer content first (min last (content.length - 1))) ↔
      last < content.length ∧ (last : Int) - first + 1 ≤ limit := by
  have hread : bytesAt content first (last - first + 1) =
      (content.drop first).take (last + 1 - first) := by
    rw [bytesAt, if_pos (by omega), Int.toNat_natCast]
    congr 1
    omega
  have hsize : ((last : Int) - first + 1).toNat = last + 1 - first := by omega
  rw [sendResponse]
  dsimp only
  constructor
  · intro hsend
    split at hsend
    next => cases hsend
    next hlimit =>
      refine ⟨?_, by omega⟩
      have hbody := congrArg List.length
        (congrArg PartialContent.body (Answer.partialContent.inj (Except.ok.inj hsend)))
      rw [hread, hsize, slice] at hbody
      simp only [List.length_append, List.length_map, List.length_take, List.length_drop,
        List.length_replicate] at hbody
      omega
  · rintro ⟨hlast, hlimit⟩
    have hmin : min last (content.length - 1) = last := by omega
    have hlength : ((content.drop first).take (last + 1 - first)).length = last + 1 - first := by
      rw [List.length_take, List.length_drop]
      omega
    have htext : (last : Int) - first + 1 = (last + 1 - first : Nat) := by omega
    rw [if_neg (by omega), hread, hsize, hlength, Nat.sub_self, List.replicate_zero,
      List.append_nil, htext, hmin, toText_natCast, toText_natCast, toText_natCast,
      toText_natCast, sliceAnswer, slice]

def ByteRange.IsWithin (limit : Int) (length : Nat) : ByteRange → Prop
  | fromTo first last => last.value < length ∧ last.value < 9223372036854775808 ∧
      (last.value : Int) - first.value + 1 < 9223372036854775808 ∧
      (last.value : Int) - first.value + 1 ≤ limit
  | startingAt _ => False
  | suffix _ => False

theorem handleGetRequest_text_iff {range : ByteRange} {first last : Nat}
    (hpositions : range.positions object.content.length = some (first, last)) :
    handleGetRequest limit command object range.text = .ok (sliceAnswer object.content first last) ↔
      ¬(command = .getObject ∧ object.storageClass ≠ .standard) ∧
        range.IsWithin limit object.content.length := by
  rw [sliceAnswer, handleGetRequest_eq_partialContent, ← sliceAnswer]
  cases range with
  | fromTo lower upper =>
    rw [ByteRange.positions] at hpositions
    split at hpositions
    next hsatisfied =>
      obtain ⟨rfl, rfl⟩ := Prod.mk.inj (Option.some.inj hpositions)
      obtain ⟨hle, hlt⟩ := hsatisfied
      constructor
      · rintro ⟨range, hrange, hnot, hsend⟩
        obtain ⟨-, hlast, hfits, rfl⟩ := getRange_fromTo.mp hrange
        obtain ⟨hwithin, hlimit⟩ := (sendResponse_eq_slice hle hlt).mp hsend
        exact ⟨hnot, hwithin, hlast, hfits, hlimit⟩
      · rintro ⟨hnot, hwithin, hlast, hfits, hlimit⟩
        refine ⟨_, getRange_fromTo.mpr ⟨by omega, hlast, hfits, rfl⟩, hnot, ?_⟩
        exact (sendResponse_eq_slice hle hlt).mpr ⟨hwithin, hlimit⟩
    next => cases hpositions
  | startingAt lower =>
    refine iff_of_false ?_ fun hwithin => hwithin.2
    rintro ⟨range, hrange, -⟩
    exact getRange_startingAt hrange
  | suffix count =>
    refine iff_of_false ?_ fun hwithin => hwithin.2
    rintro ⟨range, hrange, -⟩
    exact getRange_suffix hrange

end Satisfying

/-! ## Other fields -/

section Refusing

variable {limit : Int} {command : Command} {object : StoredObject}
variable {rangeStr headerValue parts : Bytes} {min max : Int}

def numberText (rangeStr headerValue : Bytes) : Bytes :=
  if 47 ∈ headerValue then (Bytes.split rangeStr 47).headD [] else headerValue

def HasNoNumbers (parts : Bytes) : Prop :=
  ∃ first rest, Bytes.split parts 45 = first :: rest ∧
    (Bytes.stol first = .error .exception ∨
      ∃ min second more, Bytes.stol first = .ok min ∧ rest = second :: more ∧
        Bytes.stol second = .error .exception)

/-- The numbers before and after the dash, with a size that is a number, too. -/
def HasNumbers (parts : Bytes) (min max : Int) : Prop :=
  ∃ first second more, Bytes.split parts 45 = first :: second :: more ∧
    Bytes.stol first = .ok min ∧ Bytes.stol second = .ok max ∧
    (-9223372036854775808 ≤ max - min ∧ max - min < 9223372036854775808) ∧
    max - min + 1 < 9223372036854775808

/-- The number behind the `/` is none. -/
def HasNoTotal (headerValue : Bytes) : Prop :=
  ∃ first total more, Bytes.split headerValue 47 = first :: total :: more ∧
    Bytes.stol total = .error .exception

/-- There is an `=`, and behind it no numbers, or numbers of which the second one is too small or
too large. -/
def Refused (limit : Int) (archived : Prop) (rangeStr : Bytes) : Prop :=
  ∃ unit headerValue more, Bytes.split rangeStr 61 = unit :: headerValue :: more ∧
    (HasNoNumbers (numberText rangeStr headerValue) ∨
      ∃ min max, HasNumbers (numberText rangeStr headerValue) min max ∧
        (HasNoTotal headerValue ∨ archived ∨ max + 1 < min ∨ limit < max - min + 1))

theorem split_ne_nil (text : Bytes) (delim : UInt8) : Bytes.split text delim ≠ [] :=
  List.splitOn_ne_nil delim text

variable {more : List Bytes} {delim : UInt8} {unit : Bytes}

theorem piece_zero {first : Bytes} {rest : List Bytes}
    (hsplit : Bytes.split parts delim = first :: rest) : piece parts delim 0 = .ok first := by
  rw [piece, hsplit]
  rfl

theorem piece_one {first second : Bytes}
    (hsplit : Bytes.split parts delim = first :: second :: more) :
    piece parts delim 1 = .ok second := by
  rw [piece, hsplit]
  rfl

theorem piece_one_of_singleton {first : Bytes}
    (hsplit : Bytes.split parts delim = [first]) : piece parts delim 1 = .error .outOfRange := by
  rw [piece, hsplit]
  rfl

theorem exists_split_of_mem (hmem : delim ∈ parts) :
    ∃ first second more, Bytes.split parts delim = first :: second :: more := by
  obtain ⟨front, back, rfl, -⟩ := List.eq_append_cons_of_mem hmem
  obtain ⟨first, left, hfront⟩ := List.exists_cons_of_ne_nil (split_ne_nil front delim)
  obtain ⟨second, right, hback⟩ := List.exists_cons_of_ne_nil (split_ne_nil back delim)
  rw [Bytes.split] at hfront hback ⊢
  rw [List.splitOn_append_cons_self, hfront, hback]
  cases left with
  | nil => exact ⟨first, second, right, rfl⟩
  | cons part left => exact ⟨first, part, left ++ second :: right, rfl⟩

theorem readNumbers_eq_exception : readNumbers parts = .error .exception ↔ HasNoNumbers parts := by
  obtain ⟨first, rest, hsplit⟩ := List.exists_cons_of_ne_nil (split_ne_nil parts 45)
  rw [readNumbers, piece_zero hsplit, ok_bind]
  constructor
  · intro herror
    refine ⟨first, rest, hsplit, ?_⟩
    rcases bind_eq_error.mp herror with herror | ⟨min, hmin, herror⟩
    · exact .inl herror
    · cases rest with
      | nil =>
        rw [piece_one_of_singleton hsplit] at herror
        cases herror
      | cons second more =>
        rw [piece_one hsplit, ok_bind] at herror
        refine .inr ⟨min, second, more, hmin, rfl, ?_⟩
        rcases bind_eq_error.mp herror with herror | ⟨max, hmax, herror⟩
        · exact herror
        · rcases bind_eq_error.mp herror with hlong | ⟨difference, -, hlong⟩
          · rw [long] at hlong
            split at hlong
            · cases hlong
            · cases hlong
          · rcases bind_eq_error.mp hlong with hlong | ⟨size, -, hlong⟩
            · rw [long] at hlong
              split at hlong
              · cases hlong
              · cases hlong
            · cases hlong
  · rintro ⟨other, others, hother, herror⟩
    obtain ⟨rfl, rfl⟩ := List.cons.inj (hsplit.symm.trans hother)
    rcases herror with herror | ⟨min, second, more, hmin, rfl, herror⟩
    · rw [herror]
      rfl
    · rw [hmin, ok_bind, piece_one hsplit, ok_bind, herror]
      rfl

theorem readNumbers_eq_ok {range : Range} : readNumbers parts = .ok range ↔
    ∃ min max, HasNumbers parts min max ∧ range = ⟨min, max, max - min + 1⟩ := by
  constructor
  · intro hok
    obtain ⟨first, rest, hsplit⟩ := List.exists_cons_of_ne_nil (split_ne_nil parts 45)
    rw [readNumbers, piece_zero hsplit, ok_bind] at hok
    obtain ⟨min, hmin, hok⟩ := bind_eq_ok.mp hok
    cases rest with
    | nil =>
      rw [piece_one_of_singleton hsplit] at hok
      cases hok
    | cons second more =>
      rw [piece_one hsplit, ok_bind] at hok
      obtain ⟨max, hmax, hok⟩ := bind_eq_ok.mp hok
      obtain ⟨difference, hdifference, hok⟩ := bind_eq_ok.mp hok
      obtain ⟨size, hsize, hok⟩ := bind_eq_ok.mp hok
      obtain ⟨hfits, rfl⟩ := long_eq_ok.mp hdifference
      obtain ⟨hlarge, rfl⟩ := long_eq_ok.mp hsize
      exact ⟨min, max, ⟨first, second, more, hsplit, hmin, hmax, hfits, hlarge.2⟩,
        (Except.ok.inj hok).symm⟩
  · rintro ⟨min, max, ⟨first, second, more, hsplit, hmin, hmax, hfits, hlarge⟩, rfl⟩
    have hdifference : long (max - min) = .ok (max - min) := long_eq_ok.mpr ⟨hfits, rfl⟩
    have hsize : long (max - min + 1) = .ok (max - min + 1) :=
      long_eq_ok.mpr ⟨⟨by omega, hlarge⟩, rfl⟩
    rw [readNumbers, piece_zero hsplit, ok_bind, hmin, ok_bind, piece_one hsplit, ok_bind, hmax,
      ok_bind, hdifference, ok_bind, hsize]
    rfl

theorem getRange_of_split (hsplit : Bytes.split rangeStr 61 = unit :: headerValue :: more) :
    getRange rangeStr = if 47 ∈ headerValue then do
        let range ← readNumbers (numberText rangeStr headerValue)
        let _total ← Bytes.stol (← piece headerValue 47 1)
        return range
      else readNumbers (numberText rangeStr headerValue) := by
  rw [getRange, piece_one hsplit, ok_bind]
  by_cases hmem : 47 ∈ headerValue
  · obtain ⟨first, rest, hparts⟩ := List.exists_cons_of_ne_nil (split_ne_nil rangeStr 47)
    rw [if_pos hmem, if_pos hmem, piece_zero hparts, ok_bind, numberText, if_pos hmem, hparts]
    rfl
  · rw [if_neg hmem, if_neg hmem, numberText, if_neg hmem]

theorem not_hasNoTotal (hmem : 47 ∉ headerValue) : ¬HasNoTotal headerValue := by
  rintro ⟨first, total, more, hparts, -⟩
  rw [Bytes.split, List.splitOn_eq_singleton hmem] at hparts
  cases hparts

theorem stol_total (hmem : 47 ∈ headerValue) :
    (HasNoTotal headerValue → (piece headerValue 47 1 >>= Bytes.stol) = .error .exception) ∧
      (¬HasNoTotal headerValue → ∃ total, (piece headerValue 47 1 >>= Bytes.stol) = .ok total) := by
  obtain ⟨first, total, more, hparts⟩ := exists_split_of_mem hmem
  rw [piece_one hparts, ok_bind]
  constructor
  · rintro ⟨other, number, others, hother, herror⟩
    obtain ⟨-, htail⟩ := List.cons.inj (hparts.symm.trans hother)
    rwa [(List.cons.inj htail).1]
  · intro htotal
    cases hread : Bytes.stol total with
    | ok number => exact ⟨number, rfl⟩
    | error fault =>
      obtain rfl := Bytes.stol_error hread
      exact absurd ⟨first, total, more, hparts, hread⟩ htotal

section

variable (hsplit : Bytes.split rangeStr 61 = unit :: headerValue :: more)
include hsplit

theorem getRange_eq_exception :
    getRange rangeStr = .error .exception ↔ HasNoNumbers (numberText rangeStr headerValue) ∨
      ∃ min max, HasNumbers (numberText rangeStr headerValue) min max ∧
        HasNoTotal headerValue := by
  rw [getRange_of_split hsplit]
  by_cases hmem : 47 ∈ headerValue
  · obtain ⟨hnone, hsome⟩ := stol_total hmem
    rw [if_pos hmem, bind_eq_error, readNumbers_eq_exception]
    refine or_congr_right ?_
    constructor
    · rintro ⟨range, hrange, herror⟩
      obtain ⟨min, max, hnumbers, -⟩ := readNumbers_eq_ok.mp hrange
      refine ⟨min, max, hnumbers, ?_⟩
      by_contra htotal
      obtain ⟨total, htotal⟩ := hsome htotal
      obtain ⟨part, hpart, htotal⟩ := bind_eq_ok.mp htotal
      rw [hpart, ok_bind, htotal] at herror
      cases herror
    · rintro ⟨min, max, hnumbers, htotal⟩
      refine ⟨_, readNumbers_eq_ok.mpr ⟨min, max, hnumbers, rfl⟩, ?_⟩
      rcases bind_eq_error.mp (hnone htotal) with herror | ⟨part, hpart, herror⟩
      · rw [herror]
        rfl
      · rw [hpart, ok_bind, herror]
        rfl
  · rw [if_neg hmem, readNumbers_eq_exception, or_iff_left]
    rintro ⟨min, max, -, htotal⟩
    exact not_hasNoTotal hmem htotal

theorem getRange_eq_ok {range : Range} :
    getRange rangeStr = .ok range ↔
      ∃ min max, HasNumbers (numberText rangeStr headerValue) min max ∧
        ¬HasNoTotal headerValue ∧ range = ⟨min, max, max - min + 1⟩ := by
  rw [getRange_of_split hsplit]
  by_cases hmem : 47 ∈ headerValue
  · obtain ⟨hnone, hsome⟩ := stol_total hmem
    rw [if_pos hmem]
    constructor
    · intro hok
      obtain ⟨other, hrange, hok⟩ := bind_eq_ok.mp hok
      obtain ⟨min, max, hnumbers, rfl⟩ := readNumbers_eq_ok.mp hrange
      obtain ⟨part, hpart, hok⟩ := bind_eq_ok.mp hok
      obtain ⟨total, htotal, hok⟩ := bind_eq_ok.mp hok
      refine ⟨min, max, hnumbers, ?_, (Except.ok.inj hok).symm⟩
      intro hmissing
      have herror := hnone hmissing
      rw [hpart, ok_bind, htotal] at herror
      cases herror
    · rintro ⟨min, max, hnumbers, htotal, rfl⟩
      obtain ⟨total, htotal⟩ := hsome htotal
      obtain ⟨part, hpart, htotal⟩ := bind_eq_ok.mp htotal
      rw [readNumbers_eq_ok.mpr ⟨min, max, hnumbers, rfl⟩, ok_bind, hpart, ok_bind, htotal]
      rfl
  · rw [if_neg hmem, readNumbers_eq_ok]
    constructor
    · rintro ⟨min, max, hnumbers, hrange⟩
      exact ⟨min, max, hnumbers, not_hasNoTotal hmem, hrange⟩
    · rintro ⟨min, max, hnumbers, -, hrange⟩
      exact ⟨min, max, hnumbers, hrange⟩

end

/-- Without an `=` there is no second part. -/
theorem getRange_of_singleton (hsplit : Bytes.split rangeStr 61 = [unit]) :
    getRange rangeStr = .error .outOfRange := by
  rw [getRange, piece_one_of_singleton hsplit]
  rfl

theorem handleGetRequest_eq_error_iff :
    (∃ status, handleGetRequest limit command object rangeStr = .ok (.error status)) ↔
      Refused limit (command = .getObject ∧ object.storageClass ≠ .standard) rangeStr := by
  rw [handleGetRequest_eq_error]
  obtain ⟨unit, rest, hsplit⟩ := List.exists_cons_of_ne_nil (split_ne_nil rangeStr 61)
  cases rest with
  | nil =>
    rw [getRange_of_singleton hsplit]
    refine iff_of_false ?_ ?_
    · rintro (heq | ⟨range, heq, -⟩)
      · cases heq
      · cases heq
    · rintro ⟨other, headerValue, more, hother, -⟩
      rw [hsplit] at hother
      cases hother
  | cons headerValue more =>
    constructor
    · rintro (herror | ⟨range, hrange, hrefused⟩)
      · refine ⟨unit, headerValue, more, hsplit, ?_⟩
        rcases (getRange_eq_exception hsplit).mp herror with hnone | ⟨min, max, hnumbers, htotal⟩
        · exact .inl hnone
        · exact .inr ⟨min, max, hnumbers, .inl htotal⟩
      · obtain ⟨min, max, hnumbers, -, rfl⟩ := (getRange_eq_ok hsplit).mp hrange
        refine ⟨unit, headerValue, more, hsplit, .inr ⟨min, max, hnumbers, .inr ?_⟩⟩
        rcases hrefused with harchived | hsmall | hlarge
        · exact .inl harchived
        · exact .inr (.inl (by dsimp only at hsmall; omega))
        · exact .inr (.inr hlarge)
    · rintro ⟨other, value, others, hother, hrefused⟩
      obtain ⟨-, htail⟩ := List.cons.inj (hsplit.symm.trans hother)
      obtain ⟨rfl, -⟩ := List.cons.inj htail
      rcases hrefused with hnone | ⟨min, max, hnumbers, hrefused⟩
      · exact .inl ((getRange_eq_exception hsplit).mpr (.inl hnone))
      · by_cases htotal : HasNoTotal headerValue
        · exact .inl ((getRange_eq_exception hsplit).mpr (.inr ⟨min, max, hnumbers, htotal⟩))
        · refine .inr ⟨_, (getRange_eq_ok hsplit).mpr ⟨min, max, hnumbers, htotal, rfl⟩, ?_⟩
          rcases hrefused with hmissing | harchived | hsmall | hlarge
          · exact absurd hmissing htotal
          · exact .inl harchived
          · exact .inr (.inl (by dsimp only; omega))
          · exact .inr (.inr hlarge)

end Refusing

/-! ## All fields -/

/-- The slice is sent of a range that can be satisfied, and nothing of another one. -/
structure AnswersRange (limit : Int) (command : Command) (object : StoredObject)
    (rangeStr : Bytes) : Prop where
  slice : ∀ range : ByteRange, rangeStr = range.text → ∀ first last,
    range.positions object.content.length = some (first, last) →
    handleGetRequest limit command object rangeStr = .ok (sliceAnswer object.content first last)
  refusal : ¬Satisfiable object.content.length rangeStr →
    ∃ status, handleGetRequest limit command object rangeStr = .ok (.error status)

theorem answersRange_iff (limit : Int) (command : Command) (object : StoredObject)
    (rangeStr : Bytes) :
    AnswersRange limit command object rangeStr ↔ (∀ range : ByteRange, rangeStr = range.text →
        (range.positions object.content.length).isSome →
        ¬(command = .getObject ∧ object.storageClass ≠ .standard) ∧
          range.IsWithin limit object.content.length) ∧
      (¬Satisfiable object.content.length rangeStr →
        Refused limit (command = .getObject ∧ object.storageClass ≠ .standard) rangeStr) := by
  constructor
  · rintro ⟨hslice, hrefusal⟩
    refine ⟨?_, fun hnot => handleGetRequest_eq_error_iff.mp (hrefusal hnot)⟩
    rintro range rfl hsome
    obtain ⟨⟨first, last⟩, hpositions⟩ := Option.isSome_iff_exists.mp hsome
    exact (handleGetRequest_text_iff hpositions).mp (hslice range rfl first last hpositions)
  · rintro ⟨hslice, hrefusal⟩
    refine ⟨?_, fun hnot => handleGetRequest_eq_error_iff.mpr (hrefusal hnot)⟩
    rintro range rfl first last hpositions
    exact (handleGetRequest_text_iff hpositions).mpr
      (hslice range rfl (Option.isSome_iff_exists.mpr ⟨_, hpositions⟩))

theorem not_answersRange_beyond : ¬∀ (limit : Int) (command : Command) (object : StoredObject)
    (rangeStr : Bytes), AnswersRange limit command object rangeStr := by
  intro hall
  have hslice := (hall 1000 .getObjectRange ⟨ascii "abc", .standard⟩ (ascii "bytes=1-9")).slice
    (.fromTo (.ofDigit 49 rfl) (.ofDigit 57 rfl)) rfl 1 2 rfl
  revert hslice
  decide

end AwsMock.S3
