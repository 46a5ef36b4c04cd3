import Mathlib.Data.List.Basic
import Mathlib.Data.Option.Basic
import Mathlib.Tactic.IntervalCases

/-! # JSON texts

The values that a JSON text can have, a reader of texts, and the texts that a writer may choose
for a value. A writer is free in how it spells the characters of a string. The reader gives back
what was written, and a string that it reads is no longer than its text.
-/

namespace Foundation

inductive NumberState where
  | start | minus | zero | whole | point | fraction | letter | sign | exponent
deriving DecidableEq

namespace NumberState

def step (state : NumberState) (c : Char) : Option NumberState :=
  match state with
  | start => if c = '-' then some minus else if c = '0' then some zero
      else if c.isDigit then some whole else none
  | minus => if c = '0' then some zero else if c.isDigit then some whole else none
  | zero => if c = '.' then some point else if c = 'e' ∨ c = 'E' then some letter else none
  | whole => if c.isDigit then some whole else if c = '.' then some point
      else if c = 'e' ∨ c = 'E' then some letter else none
  | point => if c.isDigit then some fraction else none
  | fraction => if c.isDigit then some fraction
      else if c = 'e' ∨ c = 'E' then some letter else none
  | letter => if c = '+' ∨ c = '-' then some sign else if c.isDigit then some exponent else none
  | sign | exponent => if c.isDigit then some exponent else none

def accepts : NumberState → List Char → Bool
  | zero, [] | whole, [] | fraction, [] | exponent, [] => true
  | start, [] | minus, [] | point, [] | letter, [] | sign, [] => false
  | state, c :: rest =>
    match state.step c with
    | some next => accepts next rest
    | none => false

end NumberState

def isNumber (lexeme : List Char) : Bool := NumberState.start.accepts lexeme

inductive Json where
  | null
  | bool (value : Bool)
  | number (lexeme : List Char) (hnumber : isNumber lexeme = true)
  | string (value : List Char)
  | array (elements : List Json)
  | object (members : List (List Char × Json))

namespace Json

def field (name : List Char) : Json → Option Json
  | .object members => (members.reverse.find? fun member => member.1 = name).map Prod.snd
  | _ => none

theorem mem_of_field {name : List Char} {members : List (List Char × Json)} {value : Json}
    (hfield : (object members).field name = some value) : (name, value) ∈ members := by
  obtain ⟨member, hfind, rfl⟩ := Option.map_eq_some_iff.mp hfield
  have hname : member.1 = name := of_decide_eq_true
    (List.find?_some (p := fun member : List Char × Json => member.1 = name) hfind)
  rw [← hname]
  exact List.mem_reverse.mp (List.mem_of_find?_eq_some hfind)

section Reading

def isBlank (c : Char) : Bool := c = ' ' || c = '\t' || c = '\n' || c = '\r'

def skipBlanks (text : List Char) : List Char := text.dropWhile isBlank

def expect (c : Char) (text : List Char) : Option (List Char) :=
  match skipBlanks text with
  | [] => none
  | d :: rest => if d = c then some rest else none

def hexDigit (c : Char) : Option Nat :=
  if '0' ≤ c ∧ c ≤ '9' then some (c.toNat - 48)
  else if 'a' ≤ c ∧ c ≤ 'f' then some (c.toNat - 87)
  else if 'A' ≤ c ∧ c ≤ 'F' then some (c.toNat - 55)
  else none

def readHex : List Char → Option (Nat × List Char)
  | a :: b :: c :: d :: rest => do
      let a ← hexDigit a
      let b ← hexDigit b
      let c ← hexDigit c
      let d ← hexDigit d
      return (((a * 16 + b) * 16 + c) * 16 + d, rest)
  | _ => none

def readLowHalf (high : Nat) : List Char → Option (Char × List Char)
  | b :: u :: rest =>
    if b = '\\' ∧ u = 'u' then
      (readHex rest).bind fun (low, rest) =>
        if 0xDC00 ≤ low ∧ low < 0xE000 then
          some (Char.ofNat (0x10000 + (high - 0xD800) * 0x400 + (low - 0xDC00)), rest)
        else none
    else none
  | _ => none

def unescape (c : Char) : Option Char :=
  if c = '"' then some '"'
  else if c = '\\' then some '\\'
  else if c = '/' then some '/'
  else if c = 'b' then some '\x08'
  else if c = 'f' then some '\x0c'
  else if c = 'n' then some '\n'
  else if c = 'r' then some '\r'
  else if c = 't' then some '\t'
  else none

def readEscape : List Char → Option (Char × List Char)
  | [] => none
  | c :: rest =>
    if c = 'u' then
      (readHex rest).bind fun (code, rest) =>
        if 0xD800 ≤ code ∧ code < 0xDC00 then readLowHalf code rest
        else if 0xDC00 ≤ code ∧ code < 0xE000 then none
        else some (Char.ofNat code, rest)
    else (unescape c).map fun c => (c, rest)

def readCharacters : Nat → List Char → Option (List Char × List Char)
  | 0, _ => none
  | _ + 1, [] => none
  | fuel + 1, c :: rest =>
    if c = '"' then some ([], rest)
    else if c = '\\' then
      (readEscape rest).bind fun (c, rest) =>
        (readCharacters fuel rest).map fun (value, rest) => (c :: value, rest)
    else if c.toNat < 32 then none
    else (readCharacters fuel rest).map fun (value, rest) => (c :: value, rest)

def readString (text : List Char) : Option (List Char × List Char) :=
  (expect '"' text).bind fun rest => readCharacters rest.length rest

def isNumberCharacter (c : Char) : Bool :=
  c.isDigit || c = '-' || c = '+' || c = '.' || c = 'e' || c = 'E'

def keywords : List (List Char × Json) :=
  [("null".toList, .null), ("true".toList, .bool true), ("false".toList, .bool false)]

def readScalar (text : List Char) : Option (Json × List Char) :=
  match keywords.find? fun keyword => keyword.1.isPrefixOf text with
  | some (keyword, value) => some (value, text.drop keyword.length)
  | none =>
    let lexeme := text.takeWhile isNumberCharacter
    if hnumber : isNumber lexeme = true then
      some (.number lexeme hnumber, text.dropWhile isNumberCharacter)
    else none

mutual

def readValue : Nat → List Char → Option (Json × List Char)
  | 0, _ => none
  | fuel + 1, text =>
    match skipBlanks text with
    | [] => none
    | c :: rest =>
      if c = '{' then
        match expect '}' rest with
        | some rest => some (.object [], rest)
        | none => (readMembers fuel rest).map fun (members, rest) => (.object members, rest)
      else if c = '[' then
        match expect ']' rest with
        | some rest => some (.array [], rest)
        | none => (readElements fuel rest).map fun (elements, rest) => (.array elements, rest)
      else if c = '"' then
        (readCharacters rest.length rest).map fun (value, rest) => (.string value, rest)
      else readScalar (c :: rest)

def readElements : Nat → List Char → Option (List Json × List Char)
  | 0, _ => none
  | fuel + 1, text =>
    (readValue fuel text).bind fun (value, rest) =>
      match expect ',' rest with
      | some rest => (readElements fuel rest).map fun (values, rest) => (value :: values, rest)
      | none => (expect ']' rest).map fun rest => ([value], rest)

def readMembers : Nat → List Char → Option (List (List Char × Json) × List Char)
  | 0, _ => none
  | fuel + 1, text =>
    (readString text).bind fun (name, rest) =>
      (expect ':' rest).bind fun rest =>
        (readValue fuel rest).bind fun (value, rest) =>
          match expect ',' rest with
          | some rest =>
            (readMembers fuel rest).map fun (members, rest) => ((name, value) :: members, rest)
          | none => (expect '}' rest).map fun rest => ([(name, value)], rest)

end

def parse (text : List Char) : Option Json :=
  match readValue (text.length + 1) text with
  | some (value, rest) => if skipBlanks rest = [] then some value else none
  | none => none

end Reading

section Writing

def IsPlain (c : Char) : Prop := c ≠ '"' ∧ c ≠ '\\' ∧ 32 ≤ c.toNat

instance (c : Char) : Decidable (IsPlain c) :=
  inferInstanceAs (Decidable (_ ∧ _ ∧ _))

inductive Spells : List Char → List Char → Prop where
  | nil : Spells [] []
  | plain {c : Char} {value text : List Char} (hc : IsPlain c) (hrest : Spells value text) :
      Spells (c :: value) (c :: text)
  | escape {c d : Char} {value text : List Char} (hd : unescape d = some c)
      (hrest : Spells value text) : Spells (c :: value) ('\\' :: d :: text)
  | code {code : Nat} {digits value text : List Char}
      (hdigits : ∀ rest, readHex (digits ++ rest) = some (code, rest))
      (hcode : code < 0xD800 ∨ 0xE000 ≤ code) (hrest : Spells value text) :
      Spells (Char.ofNat code :: value) ('\\' :: 'u' :: digits ++ text)

mutual

inductive Writes : Json → List Char → Prop where
  | keyword {text : List Char} {value : Json} (hkeyword : (text, value) ∈ keywords) :
      Writes value text
  | number {lexeme : List Char} (hnumber : isNumber lexeme = true) :
      Writes (.number lexeme hnumber) lexeme
  | string {value text : List Char} (hspells : Spells value text) :
      Writes (.string value) ('"' :: text ++ ['"'])
  | emptyArray : Writes (.array []) ['[', ']']
  | array {elements : List Json} {text : List Char} (helements : WritesElements elements text) :
      Writes (.array elements) ('[' :: text ++ [']'])
  | emptyObject : Writes (.object []) ['{', '}']
  | object {members : List (List Char × Json)} {text : List Char}
      (hmembers : WritesMembers members text) : Writes (.object members) ('{' :: text ++ ['}'])

inductive WritesElements : List Json → List Char → Prop where
  | one {value : Json} {text : List Char} (hvalue : Writes value text) :
      WritesElements [value] text
  | cons {value : Json} {values : List Json} {text rest : List Char} (hvalue : Writes value text)
      (hrest : WritesElements values rest) : WritesElements (value :: values) (text ++ ',' :: rest)

inductive WritesMembers : List (List Char × Json) → List Char → Prop where
  | one {name spelling : List Char} {value : Json} {text : List Char}
      (hname : Spells name spelling) (hvalue : Writes value text) :
      WritesMembers [(name, value)] ('"' :: spelling ++ '"' :: ':' :: text)
  | cons {name spelling : List Char} {value : Json} {members : List (List Char × Json)}
      {text rest : List Char} (hname : Spells name spelling) (hvalue : Writes value text)
      (hrest : WritesMembers members rest) :
      WritesMembers ((name, value) :: members) ('"' :: spelling ++ '"' :: ':' :: text ++ ',' :: rest)

end

end Writing

section Lengths

variable {text rest : List Char}

theorem skipBlanks_length_le (text : List Char) : (skipBlanks text).length ≤ text.length :=
  List.Sublist.length_le (List.dropWhile_sublist _)

theorem expect_length_lt {c : Char} (hexpect : expect c text = some rest) :
    rest.length < text.length := by
  have hlength := skipBlanks_length_le text
  unfold expect at hexpect
  split at hexpect
  next => cases hexpect
  next d after hskip =>
    split at hexpect
    next =>
      cases hexpect
      rw [hskip] at hlength
      exact hlength
    next => cases hexpect

theorem readHex_length {code : Nat} (hread : readHex text = some (code, rest)) :
    rest.length + 4 = text.length := by
  unfold readHex at hread
  split at hread
  next a b c d after =>
    simp only [Option.bind_eq_bind, Option.bind_eq_some_iff, Option.pure_def,
      Option.some.injEq, Prod.mk.injEq] at hread
    obtain ⟨-, -, -, -, -, -, -, -, -, rfl⟩ := hread
    rfl
  next => cases hread

theorem readLowHalf_length_lt {high : Nat} {c : Char}
    (hread : readLowHalf high text = some (c, rest)) : rest.length < text.length := by
  unfold readLowHalf at hread
  split at hread
  next b u after =>
    split at hread
    next =>
      obtain ⟨⟨low, other⟩, hhex, hread⟩ := Option.bind_eq_some_iff.mp hread
      have hlength := readHex_length hhex
      obtain ⟨-, heq⟩ := Option.ite_none_right_eq_some.mp hread
      obtain ⟨-, rfl⟩ := Prod.mk.inj (Option.some.inj heq)
      rw [List.length_cons, List.length_cons]
      omega
    next => cases hread
  next => cases hread

theorem readEscape_length_lt {c : Char} (hread : readEscape text = some (c, rest)) :
    rest.length < text.length := by
  unfold readEscape at hread
  split at hread
  next => cases hread
  next d after =>
    rw [List.length_cons]
    split at hread
    next =>
      obtain ⟨⟨code, other⟩, hhex, hread⟩ := Option.bind_eq_some_iff.mp hread
      have hlength := readHex_length hhex
      dsimp only at hread
      split at hread
      next =>
        have hlow := readLowHalf_length_lt hread
        omega
      next =>
        split at hread
        next => cases hread
        next =>
          cases hread
          omega
    next =>
      obtain ⟨d, -, hread⟩ := Option.map_eq_some_iff.mp hread
      cases hread
      exact Nat.lt_succ_self _

theorem readCharacters_length {fuel : Nat} {value : List Char}
    (hread : readCharacters fuel text = some (value, rest)) :
    value.length + rest.length + 1 ≤ text.length ∧
      (value.length + rest.length + 1 = text.length → ∀ c ∈ value, IsPlain c) := by
  induction fuel generalizing text value with
  | zero => cases hread
  | succ fuel ih =>
    cases text with
    | nil => cases hread
    | cons c text =>
      rw [readCharacters] at hread
      split at hread
      next =>
        cases hread
        exact ⟨by rw [List.length_nil, List.length_cons, Nat.zero_add],
          fun _ _ hmem => (List.not_mem_nil hmem).elim⟩
      next hquote =>
        split at hread
        next =>
          obtain ⟨⟨d, after⟩, hescape, hread⟩ := Option.bind_eq_some_iff.mp hread
          obtain ⟨⟨others, last⟩, hothers, hread⟩ := Option.map_eq_some_iff.mp hread
          cases hread
          have hlength := readEscape_length_lt hescape
          have hrest := (ih hothers).1
          rw [List.length_cons, List.length_cons]
          refine ⟨by omega, fun heq => ?_⟩
          omega
        next hslash =>
          split at hread
          next => cases hread
          next hcontrol =>
            obtain ⟨⟨others, last⟩, hothers, hread⟩ := Option.map_eq_some_iff.mp hread
            cases hread
            obtain ⟨hrest, hplain⟩ := ih hothers
            rw [List.length_cons, List.length_cons]
            refine ⟨by omega, fun heq d hmem => ?_⟩
            rcases List.mem_cons.mp hmem with rfl | hmem
            · exact ⟨hquote, hslash, Nat.le_of_not_lt hcontrol⟩
            · exact hplain (by omega) d hmem

theorem readString_length {value : List Char} (hread : readString text = some (value, rest)) :
    rest.length < text.length := by
  obtain ⟨after, hexpect, hread⟩ := Option.bind_eq_some_iff.mp hread
  have hlength := expect_length_lt hexpect
  have hrest := (readCharacters_length hread).1
  omega

theorem readScalar_length {value : Json} (hread : readScalar text = some (value, rest)) :
    rest.length ≤ text.length ∧ ∀ content, value ≠ .string content := by
  unfold readScalar at hread
  split at hread
  next keyword found hfind =>
    cases hread
    refine ⟨by rw [List.length_drop]; omega, ?_⟩
    have hmem := List.mem_of_find?_eq_some hfind
    rintro content rfl
    simp [keywords] at hmem
  next =>
    dsimp only at hread
    split at hread
    next =>
      cases hread
      exact ⟨List.Sublist.length_le (List.dropWhile_sublist _), fun _ => Json.noConfusion⟩
    next => cases hread

theorem read_length (fuel : Nat) :
    (∀ {text rest value}, readValue fuel text = some (value, rest) → rest.length ≤ text.length ∧
        ∀ content, value = .string content → content.length + 2 + rest.length ≤ text.length) ∧
    (∀ {text rest values}, readElements fuel text = some (values, rest) →
      rest.length ≤ text.length) ∧
    ∀ {text rest members}, readMembers fuel text = some (members, rest) →
      rest.length ≤ text.length ∧ ∀ name content, (name, Json.string content) ∈ members →
          content.length + 2 + rest.length ≤ text.length := by
  induction fuel with
  | zero => exact ⟨by rintro _ _ _ ⟨⟩, by rintro _ _ _ ⟨⟩, by rintro _ _ _ ⟨⟩⟩
  | succ fuel ih =>
    obtain ⟨hvalue, helements, hmembers⟩ := ih
    refine ⟨?_, ?_, ?_⟩
    · intro text rest value hread
      have hskip := skipBlanks_length_le text
      rw [readValue] at hread
      split at hread
      next => cases hread
      next c after hafter =>
        rw [hafter, List.length_cons] at hskip
        split at hread
        next =>
          split at hread
          next last hexpect =>
            cases hread
            have hlength := expect_length_lt hexpect
            exact ⟨by omega, fun _ => Json.noConfusion⟩
          next =>
            obtain ⟨⟨members, last⟩, hother, hread⟩ := Option.map_eq_some_iff.mp hread
            cases hread
            have hlength := (hmembers hother).1
            exact ⟨by omega, fun _ => Json.noConfusion⟩
        next =>
          split at hread
          next =>
            split at hread
            next last hexpect =>
              cases hread
              have hlength := expect_length_lt hexpect
              exact ⟨by omega, fun _ => Json.noConfusion⟩
            next =>
              obtain ⟨⟨elements, last⟩, hother, hread⟩ := Option.map_eq_some_iff.mp hread
              cases hread
              have hlength := helements hother
              exact ⟨by omega, fun _ => Json.noConfusion⟩
          next =>
            split at hread
            next =>
              obtain ⟨⟨content, last⟩, hother, hread⟩ := Option.map_eq_some_iff.mp hread
              cases hread
              have hlength := (readCharacters_length hother).1
              refine ⟨by omega, ?_⟩
              rintro content ⟨⟩
              omega
            next =>
              obtain ⟨hlength, hother⟩ := readScalar_length hread
              rw [List.length_cons] at hlength
              exact ⟨by omega, fun content heq => (hother content heq).elim⟩
    · intro text rest values hread
      rw [readElements] at hread
      obtain ⟨⟨value, after⟩, hfirst, hread⟩ := Option.bind_eq_some_iff.mp hread
      have hlength := (hvalue hfirst).1
      dsimp only at hread
      split at hread
      next last hexpect =>
        obtain ⟨⟨others, final⟩, hother, hread⟩ := Option.map_eq_some_iff.mp hread
        dsimp only at hread
        cases hread
        have hcomma := expect_length_lt hexpect
        have hrest := helements hother
        omega
      next =>
        obtain ⟨last, hexpect, hread⟩ := Option.map_eq_some_iff.mp hread
        cases hread
        have hclose := expect_length_lt hexpect
        omega
    · intro text rest members hread
      rw [readMembers] at hread
      obtain ⟨⟨name, afterName⟩, hname, hread⟩ := Option.bind_eq_some_iff.mp hread
      obtain ⟨afterColon, hcolon, hread⟩ := Option.bind_eq_some_iff.mp hread
      obtain ⟨⟨value, after⟩, hfirst, hread⟩ := Option.bind_eq_some_iff.mp hread
      have hnameLength := readString_length hname
      have hcolonLength := expect_length_lt hcolon
      obtain ⟨hlength, hstring⟩ := hvalue hfirst
      dsimp only at hread
      split at hread
      next last hexpect =>
        obtain ⟨⟨others, final⟩, hother, hread⟩ := Option.map_eq_some_iff.mp hread
        dsimp only at hread
        cases hread
        have hcomma := expect_length_lt hexpect
        obtain ⟨hrest, hothers⟩ := hmembers hother
        refine ⟨by omega, fun other content hmem => ?_⟩
        rcases List.mem_cons.mp hmem with heq | hmem
        · have hcontent := hstring content (Prod.ext_iff.mp heq).2.symm
          omega
        · have hcontent := hothers other content hmem
          omega
      next =>
        obtain ⟨last, hexpect, hread⟩ := Option.map_eq_some_iff.mp hread
        cases hread
        have hclose := expect_length_lt hexpect
        refine ⟨by omega, fun other content hmem => ?_⟩
        have hcontent := hstring content (Prod.ext_iff.mp (List.mem_singleton.mp hmem)).2.symm
        omega

end Lengths

section Completeness

variable {value : List Char} {text rest : List Char} {c d : Char} {fuel : Nat}

theorem expect_cons (hc : isBlank c = false) (rest : List Char) :
    expect c (c :: rest) = some rest := by
  unfold expect skipBlanks
  rw [List.dropWhile_cons_of_neg (by rw [hc]; exact Bool.false_ne_true)]
  exact if_pos rfl

theorem expect_cons_of_ne (hd : isBlank d = false) (hne : d ≠ c) (rest : List Char) :
    expect c (d :: rest) = none := by
  unfold expect skipBlanks
  rw [List.dropWhile_cons_of_neg (by rw [hd]; exact Bool.false_ne_true)]
  exact if_neg hne

theorem isPlain_of_all {text : List Char} (hall : text.all (decide <| IsPlain ·) = true) :
    ∀ c ∈ text, IsPlain c :=
  fun c hc => of_decide_eq_true (List.all_eq_true.mp hall c hc)

theorem spells_self (hplain : ∀ c ∈ value, IsPlain c) : Spells value value := by
  induction value with
  | nil => exact .nil
  | cons c value ih =>
    exact .plain (hplain c List.mem_cons_self) (ih fun d hd =>
      hplain d (List.mem_cons_of_mem c hd))

theorem Spells.readCharacters_eq (hspells : Spells value text) (hfuel : text.length < fuel) :
    readCharacters fuel (text ++ '"' :: rest) = some (value, rest) := by
  induction hspells generalizing fuel with
  | nil =>
    obtain ⟨fuel, rfl⟩ := Nat.exists_eq_add_one_of_ne_zero (Nat.ne_zero_of_lt hfuel)
    rw [List.nil_append, readCharacters, if_pos rfl]
  | plain hc hrest ih =>
    obtain ⟨fuel, rfl⟩ := Nat.exists_eq_add_one_of_ne_zero (Nat.ne_zero_of_lt hfuel)
    rw [List.length_cons] at hfuel
    rw [List.cons_append, readCharacters, if_neg hc.1, if_neg hc.2.1,
      if_neg (Nat.not_lt.mpr hc.2.2), ih (Nat.lt_of_succ_lt_succ hfuel)]
    rfl
  | @escape c d value text hd hrest ih =>
    obtain ⟨fuel, rfl⟩ := Nat.exists_eq_add_one_of_ne_zero (Nat.ne_zero_of_lt hfuel)
    rw [List.length_cons, List.length_cons] at hfuel
    have hletter : d ≠ 'u' := by
      rintro rfl
      cases hd
    have hescape : readEscape (d :: (text ++ '"' :: rest)) =
        some (c, text ++ '"' :: rest) := by
      rw [readEscape, if_neg hletter, hd]
      rfl
    rw [List.cons_append, List.cons_append, readCharacters, if_neg (by decide), if_pos rfl,
      hescape, Option.bind_some]
    dsimp only
    rw [ih (by omega)]
    rfl
  | @code code digits value text hdigits hcode hrest ih =>
    obtain ⟨fuel, rfl⟩ := Nat.exists_eq_add_one_of_ne_zero (Nat.ne_zero_of_lt hfuel)
    rw [List.cons_append, List.cons_append, List.length_cons, List.length_cons,
      List.length_append] at hfuel
    have hhigh : ¬(0xD800 ≤ code ∧ code < 0xDC00) := by omega
    have hlow : ¬(0xDC00 ≤ code ∧ code < 0xE000) := by omega
    have hescape : readEscape ('u' :: (digits ++ (text ++ '"' :: rest))) =
        some (Char.ofNat code, text ++ '"' :: rest) := by
      rw [readEscape, if_pos rfl, hdigits, Option.bind_some]
      dsimp only
      rw [if_neg hhigh, if_neg hlow]
    rw [List.cons_append, List.cons_append, List.cons_append, List.cons_append,
      List.append_assoc, readCharacters, if_neg (by decide), if_pos rfl, hescape,
      Option.bind_some]
    dsimp only
    rw [ih (by omega)]
    rfl

theorem isNumberCharacter_of_step {state next : NumberState} (hstep : state.step c = some next) :
    isNumberCharacter c = true := by
  unfold isNumberCharacter
  cases state <;>
  · unfold NumberState.step at hstep
    split_ifs at hstep with h h h <;> simp_all

variable {lexeme : List Char} {json : Json}

theorem isNumberCharacter_of_accepts {state : NumberState}
    (haccepts : state.accepts lexeme = true) : ∀ c ∈ lexeme, isNumberCharacter c = true := by
  induction lexeme generalizing state with
  | nil => exact fun _ hmem => (List.not_mem_nil hmem).elim
  | cons d lexeme ih =>
    rw [NumberState.accepts] at haccepts
    split at haccepts
    next next hstep =>
      intro c hmem
      rcases List.mem_cons.mp hmem with rfl | hmem
      · exact isNumberCharacter_of_step hstep
      · exact ih haccepts c hmem
    next => cases haccepts

theorem cons_of_isNumber (hnumber : isNumber lexeme = true) :
    ∃ c rest, lexeme = c :: rest ∧ (c = '-' ∨ c.isDigit = true) := by
  unfold isNumber at hnumber
  cases lexeme with
  | nil => cases hnumber
  | cons c rest =>
    refine ⟨c, rest, rfl, ?_⟩
    rw [NumberState.accepts] at hnumber
    split at hnumber
    next next hstep =>
      unfold NumberState.step at hstep
      dsimp only at hstep
      split_ifs at hstep with hminus hzero hdigit
      · exact .inl hminus
      · subst hzero
        exact .inr rfl
      · exact .inr hdigit
    next => cases hnumber

theorem ne_of_number_start (hc : c = '-' ∨ c.isDigit = true) (hminus : d ≠ '-')
    (hd : d.isDigit = false) : c ≠ d := by
  rintro rfl
  rcases hc with rfl | hdigit
  · exact hminus rfl
  · rw [hd] at hdigit
    cases hdigit

theorem isBlank_of_number_start (hc : c = '-' ∨ c.isDigit = true) : isBlank c = false := by
  unfold isBlank
  simp only [Bool.or_eq_false_iff, decide_eq_false_iff_not]
  exact ⟨⟨⟨ne_of_number_start hc (by decide) rfl, ne_of_number_start hc (by decide) rfl⟩,
    ne_of_number_start hc (by decide) rfl⟩, ne_of_number_start hc (by decide) rfl⟩

def Ends (rest : List Char) : Prop := ∀ c ∈ rest.head?, isNumberCharacter c = false

theorem Ends.nil : Ends [] := fun _ h => nomatch h

theorem Ends.cons (hc : isNumberCharacter c = false) : Ends (c :: rest) := by
  rintro _ ⟨⟩
  exact hc

theorem Writes.head (hwrites : Writes json text) :
    ∃ c rest, text = c :: rest ∧ isBlank c = false ∧ c ≠ '}' ∧ c ≠ ']' := by
  cases hwrites with
  | keyword hkeyword =>
    unfold keywords at hkeyword
    simp only [List.mem_cons, Prod.mk.injEq, List.not_mem_nil, or_false] at hkeyword
    rcases hkeyword with ⟨rfl, -⟩ | ⟨rfl, -⟩ | ⟨rfl, -⟩ <;>
    exact ⟨_, _, rfl, by decide, by decide, by decide⟩
  | number hnumber =>
    obtain ⟨c, rest, rfl, hc⟩ := cons_of_isNumber hnumber
    exact ⟨c, rest, rfl, isBlank_of_number_start hc, ne_of_number_start hc (by decide) rfl,
      ne_of_number_start hc (by decide) rfl⟩
  | string hspells => exact ⟨_, _, rfl, by decide, by decide, by decide⟩
  | emptyArray => exact ⟨_, _, rfl, by decide, by decide, by decide⟩
  | array helements => exact ⟨_, _, rfl, by decide, by decide, by decide⟩
  | emptyObject => exact ⟨_, _, rfl, by decide, by decide, by decide⟩
  | object hmembers => exact ⟨_, _, rfl, by decide, by decide, by decide⟩

theorem Ends.takeWhile_eq (hends : Ends rest) : rest.takeWhile isNumberCharacter = [] := by
  cases rest with
  | nil => rfl
  | cons c rest =>
    have hc : isNumberCharacter c = false := hends c rfl
    rw [List.takeWhile_cons, hc, if_neg Bool.false_ne_true]

theorem Ends.dropWhile_eq (hends : Ends rest) : rest.dropWhile isNumberCharacter = rest := by
  cases rest with
  | nil => rfl
  | cons c rest =>
    have hc : isNumberCharacter c = false := hends c rfl
    rw [List.dropWhile_cons, hc, if_neg Bool.false_ne_true]

theorem readScalar_keyword (hkeyword : (text, json) ∈ keywords)
    (rest : List Char) : readScalar (text ++ rest) = some (json, rest) := by
  unfold keywords at hkeyword
  simp only [List.mem_cons, Prod.mk.injEq, List.not_mem_nil, or_false] at hkeyword
  rcases hkeyword with ⟨rfl, rfl⟩ | ⟨rfl, rfl⟩ | ⟨rfl, rfl⟩ <;> rfl

theorem readScalar_number (hnumber : isNumber lexeme = true) (hends : Ends rest) :
    readScalar (lexeme ++ rest) = some (.number lexeme hnumber, rest) := by
  have hcharacters := isNumberCharacter_of_accepts hnumber
  have htake : (lexeme ++ rest).takeWhile isNumberCharacter = lexeme := by
    rw [List.takeWhile_append_of_pos hcharacters, hends.takeWhile_eq, List.append_nil]
  have hdrop : (lexeme ++ rest).dropWhile isNumberCharacter = rest := by
    rw [List.dropWhile_append_of_pos hcharacters, hends.dropWhile_eq]
  have hfind : (keywords.find? fun keyword => keyword.1.isPrefixOf (lexeme ++ rest)) = none := by
    obtain ⟨c, others, rfl, hc⟩ := cons_of_isNumber hnumber
    have hn : c ≠ 'n' := ne_of_number_start hc (by decide) rfl
    have ht : c ≠ 't' := ne_of_number_start hc (by decide) rfl
    have hf : c ≠ 'f' := ne_of_number_start hc (by decide) rfl
    simp [keywords, List.isPrefixOf, hn.symm, ht.symm, hf.symm]
  unfold readScalar
  rw [hfind]
  dsimp only
  simp only [htake, hdrop]
  exact dif_pos hnumber

theorem readValue_scalar (hc : isBlank c = false) (hbrace : c ≠ '{') (hbracket : c ≠ '[')
    (hquote : c ≠ '"') (fuel : Nat) (rest : List Char) :
    readValue (fuel + 1) (c :: rest) = readScalar (c :: rest) := by
  have hskip : skipBlanks (c :: rest) = c :: rest :=
    List.dropWhile_cons_of_neg (by rw [hc]; exact Bool.false_ne_true)
  rw [readValue, hskip]
  dsimp only
  rw [if_neg hbrace, if_neg hbracket, if_neg hquote]

theorem readString_spelled {spelling : List Char} (hspells : Spells value spelling) :
    readString ('"' :: spelling ++ '"' :: rest) = some (value, rest) := by
  rw [readString, List.cons_append, expect_cons rfl, Option.bind_some]
  exact hspells.readCharacters_eq (by rw [List.length_append, List.length_cons]; omega)

theorem WritesElements.head {values : List Json} (hwrites : WritesElements values text) :
    ∃ c rest, text = c :: rest ∧ isBlank c = false ∧ c ≠ '}' ∧ c ≠ ']' := by
  cases hwrites with
  | one hvalue => exact hvalue.head
  | cons hvalue hrest =>
    obtain ⟨c, rest, rfl, hc⟩ := hvalue.head
    exact ⟨c, _, rfl, hc⟩

theorem WritesMembers.head {members : List (List Char × Json)}
    (hwrites : WritesMembers members text) : ∃ rest, text = '"' :: rest := by
  cases hwrites with
  | one hname hvalue => exact ⟨_, rfl⟩
  | cons hname hvalue hrest => exact ⟨_, rfl⟩

mutual

theorem Writes.readValue_eq {json : Json} {text rest : List Char} {fuel : Nat}
    (hwrites : Writes json text) (hends : Ends rest) (hfuel : text.length ≤ fuel) :
    readValue fuel (text ++ rest) = some (json, rest) := by
  have hnonempty : fuel ≠ 0 := by
    obtain ⟨c, others, rfl, -⟩ := hwrites.head
    exact Nat.ne_zero_of_lt hfuel
  obtain ⟨fuel, rfl⟩ := Nat.exists_eq_add_one_of_ne_zero hnonempty
  match hwrites with
  | .keyword hkeyword =>
    rw [← readScalar_keyword hkeyword rest]
    unfold keywords at hkeyword
    simp only [List.mem_cons, Prod.mk.injEq, List.not_mem_nil, or_false] at hkeyword
    rcases hkeyword with ⟨rfl, -⟩ | ⟨rfl, -⟩ | ⟨rfl, -⟩ <;>
    exact readValue_scalar rfl (by decide) (by decide) (by decide) _ _
  | .number hnumber =>
    rw [← readScalar_number hnumber hends]
    obtain ⟨c, others, heq, hc⟩ := cons_of_isNumber hnumber
    rw [heq]
    exact readValue_scalar (isBlank_of_number_start hc) (ne_of_number_start hc (by decide) rfl)
      (ne_of_number_start hc (by decide) rfl) (ne_of_number_start hc (by decide) rfl) _ _
  | @Writes.string value spelling hspells =>
    have hread : readCharacters (spelling ++ '"' :: rest).length (spelling ++ '"' :: rest) =
        some (value, rest) :=
      hspells.readCharacters_eq (by rw [List.length_append, List.length_cons]; omega)
    change (readCharacters (spelling ++ ['"'] ++ rest).length
      (spelling ++ ['"'] ++ rest)).map _ = _
    rw [List.append_assoc, List.singleton_append, hread]
    rfl
  | .emptyArray => rfl
  | @Writes.array elements inner helements =>
    obtain ⟨c, others, heq, hblank, -, hclose⟩ := helements.head
    have hexpect : expect ']' (inner ++ ']' :: rest) = none := by
      rw [heq]
      exact expect_cons_of_ne hblank hclose _
    rw [List.cons_append, List.length_cons, List.length_append] at hfuel
    have hread : readElements fuel (inner ++ ']' :: rest) = some (elements, rest) :=
      helements.readElements_eq (Nat.le_of_succ_le_succ hfuel)
    rw [readValue, List.cons_append, List.cons_append, List.append_assoc, List.singleton_append]
    change (match expect ']' (inner ++ ']' :: rest) with
      | some rest => some (Json.array [], rest)
      | none => (readElements fuel (inner ++ ']' :: rest)).map
          fun (elements, rest) => (Json.array elements, rest)) = _
    rw [hexpect, hread]
    rfl
  | .emptyObject => rfl
  | @Writes.object members inner hmembers =>
    obtain ⟨others, heq⟩ := hmembers.head
    have hexpect : expect '}' (inner ++ '}' :: rest) = none := by
      rw [heq]
      exact expect_cons_of_ne rfl (by decide) _
    rw [List.cons_append, List.length_cons, List.length_append] at hfuel
    have hread : readMembers fuel (inner ++ '}' :: rest) = some (members, rest) :=
      hmembers.readMembers_eq (Nat.le_of_succ_le (Nat.le_of_succ_le_succ hfuel))
    rw [readValue, List.cons_append, List.cons_append, List.append_assoc, List.singleton_append]
    change (match expect '}' (inner ++ '}' :: rest) with
      | some rest => some (Json.object [], rest)
      | none => (readMembers fuel (inner ++ '}' :: rest)).map
          fun (members, rest) => (Json.object members, rest)) = _
    rw [hexpect, hread]
    rfl

theorem WritesElements.readElements_eq {values : List Json} {text rest : List Char} {fuel : Nat}
    (hwrites : WritesElements values text) (hfuel : text.length < fuel) :
    readElements fuel (text ++ ']' :: rest) = some (values, rest) := by
  obtain ⟨fuel, rfl⟩ := Nat.exists_eq_add_one_of_ne_zero (Nat.ne_zero_of_lt hfuel)
  match hwrites with
  | .one hvalue =>
    rw [readElements, hvalue.readValue_eq (.cons rfl) (Nat.le_of_lt_succ hfuel), Option.bind_some]
    dsimp only
    rw [expect_cons_of_ne rfl (by decide), expect_cons rfl]
    rfl
  | .cons hvalue hrest =>
    rw [List.length_append, List.length_cons] at hfuel
    rw [readElements, List.append_assoc, List.cons_append,
      hvalue.readValue_eq (.cons rfl) (by omega), Option.bind_some]
    dsimp only
    rw [expect_cons rfl]
    dsimp only
    rw [hrest.readElements_eq (by omega)]
    rfl

theorem WritesMembers.readMembers_eq {members : List (List Char × Json)} {text rest : List Char}
    {fuel : Nat} (hwrites : WritesMembers members text) (hfuel : text.length ≤ fuel) :
    readMembers fuel (text ++ '}' :: rest) = some (members, rest) := by
  have hnonempty : fuel ≠ 0 := by
    obtain ⟨others, rfl⟩ := hwrites.head
    exact Nat.ne_zero_of_lt hfuel
  obtain ⟨fuel, rfl⟩ := Nat.exists_eq_add_one_of_ne_zero hnonempty
  match hwrites with
  | @WritesMembers.one name spelling value inner hname hvalue =>
    simp only [List.cons_append, List.length_cons, List.length_append] at hfuel
    have hstring : readString ('"' :: spelling ++ '"' :: ':' :: (inner ++ '}' :: rest)) =
        some (name, ':' :: (inner ++ '}' :: rest)) := readString_spelled hname
    have htext : ('"' :: spelling ++ '"' :: ':' :: inner) ++ '}' :: rest =
        '"' :: spelling ++ '"' :: ':' :: (inner ++ '}' :: rest) := by
      simp only [List.cons_append, List.append_assoc]
    rw [readMembers, htext, hstring, Option.bind_some]
    dsimp only
    rw [expect_cons rfl, Option.bind_some, hvalue.readValue_eq (.cons rfl) (by omega),
      Option.bind_some]
    dsimp only
    rw [expect_cons_of_ne rfl (by decide), expect_cons rfl]
    rfl
  | @WritesMembers.cons name spelling value members inner others hname hvalue hrest =>
    simp only [List.cons_append, List.length_cons, List.length_append] at hfuel
    have hstring : readString
        ('"' :: spelling ++ '"' :: ':' :: (inner ++ ',' :: (others ++ '}' :: rest))) =
        some (name, ':' :: (inner ++ ',' :: (others ++ '}' :: rest))) :=
      readString_spelled hname
    have htext : ('"' :: spelling ++ '"' :: ':' :: inner ++ ',' :: others) ++ '}' :: rest =
        '"' :: spelling ++ '"' :: ':' :: (inner ++ ',' :: (others ++ '}' :: rest)) := by
      simp only [List.cons_append, List.append_assoc]
    rw [readMembers, htext, hstring, Option.bind_some]
    dsimp only
    rw [expect_cons rfl, Option.bind_some, hvalue.readValue_eq (.cons rfl) (by omega),
      Option.bind_some]
    dsimp only
    rw [expect_cons rfl]
    dsimp only
    rw [hrest.readMembers_eq (by omega)]
    rfl

end

theorem Writes.parse_eq (hwrites : Writes json text) : parse text = some json := by
  have hread := hwrites.readValue_eq .nil (Nat.le_succ text.length)
  rw [List.append_nil] at hread
  unfold parse
  rw [hread]
  exact if_pos rfl

end Completeness

section Compact

def hexLetter (digit : Nat) : Char := "0123456789abcdef".toList.getD digit '0'

def shortEscapes : List (Char × Char) :=
  [('"', '"'), ('\\', '\\'), ('\x08', 'b'), ('\x0c', 'f'), ('\n', 'n'), ('\r', 'r'), ('\t', 't')]

def spell (c : Char) : List Char :=
  match shortEscapes.find? fun escape => escape.1 = c with
  | some (_, letter) => ['\\', letter]
  | none =>
    if c.toNat < 32 then ['\\', 'u', '0', '0', hexLetter (c.toNat / 16), hexLetter (c.toNat % 16)]
    else [c]

def quote (value : List Char) : List Char := '"' :: value.flatMap spell ++ ['"']

mutual

def compact : Json → List Char
  | .null => "null".toList
  | .bool true => "true".toList
  | .bool false => "false".toList
  | .number lexeme _ => lexeme
  | .string value => quote value
  | .array elements => '[' :: compactElements elements ++ [']']
  | .object members => '{' :: compactMembers members ++ ['}']

def compactElements : List Json → List Char
  | [] => []
  | [value] => compact value
  | value :: values => compact value ++ ',' :: compactElements values

def compactMembers : List (List Char × Json) → List Char
  | [] => []
  | [(name, value)] => quote name ++ ':' :: compact value
  | (name, value) :: members => quote name ++ ':' :: compact value ++ ',' :: compactMembers members

end

theorem readHex_control {code : Nat} (hcode : code < 32) (rest : List Char) :
    readHex (['0', '0', hexLetter (code / 16), hexLetter (code % 16)] ++ rest) =
      some (code, rest) := by
  interval_cases code <;> rfl

theorem spells_spell {c : Char} {value text : List Char} (hrest : Spells value text) :
    Spells (c :: value) (spell c ++ text) := by
  unfold spell
  split
  next d letter hfind =>
    obtain rfl : d = c := of_decide_eq_true (List.find?_some (p := fun escape : Char × Char =>
      escape.1 = c) hfind)
    have hmem := List.mem_of_find?_eq_some hfind
    refine .escape ?_ hrest
    unfold shortEscapes at hmem
    simp only [List.mem_cons, Prod.mk.injEq, List.not_mem_nil, or_false] at hmem
    rcases hmem with ⟨rfl, rfl⟩ | ⟨rfl, rfl⟩ | ⟨rfl, rfl⟩ | ⟨rfl, rfl⟩ | ⟨rfl, rfl⟩ | ⟨rfl, rfl⟩ |
      ⟨rfl, rfl⟩ <;> rfl
  next hfind =>
    have hnone := List.find?_eq_none.mp hfind
    split
    next hcontrol =>
      have hcode := Spells.code (readHex_control hcontrol) (.inl (by omega)) hrest
      rwa [Char.ofNat_toNat] at hcode
    next hcontrol =>
      refine .plain ⟨?_, ?_, Nat.le_of_not_lt hcontrol⟩ hrest
      · rintro rfl
        exact hnone ('"', '"') (by decide) rfl
      · rintro rfl
        exact hnone ('\\', '\\') (by decide) rfl

theorem spells_flatMap (value : List Char) : Spells value (value.flatMap spell) := by
  induction value with
  | nil => exact .nil
  | cons c value ih => exact spells_spell ih

mutual

theorem writes_compact (json : Json) : Writes json (compact json) := by
  match json with
  | .null => exact .keyword (by unfold keywords; exact List.mem_cons_self)
  | .bool true => exact .keyword (List.mem_cons_of_mem _ List.mem_cons_self)
  | .bool false =>
    exact .keyword (List.mem_cons_of_mem _ (List.mem_cons_of_mem _ List.mem_cons_self))
  | .number lexeme hnumber =>
    rw [compact]
    exact .number hnumber
  | .string value =>
    rw [compact]
    exact .string (spells_flatMap value)
  | .array [] =>
    rw [compact, compactElements]
    exact .emptyArray
  | .array (element :: elements) =>
    rw [compact]
    exact .array (writes_compactElements (element :: elements) (List.cons_ne_nil _ _))
  | .object [] =>
    rw [compact, compactMembers]
    exact .emptyObject
  | .object ((name, value) :: members) =>
    rw [compact]
    exact .object (writes_compactMembers ((name, value) :: members) (List.cons_ne_nil _ _))

theorem writes_compactElements (values : List Json) (hnonempty : values ≠ []) :
    WritesElements values (compactElements values) := by
  match values with
  | [] => exact absurd rfl hnonempty
  | [value] =>
    rw [compactElements]
    exact .one (writes_compact value)
  | value :: other :: values =>
    rw [compactElements]
    · exact .cons (writes_compact value)
        (writes_compactElements (other :: values) (List.cons_ne_nil other values))
    · exact List.cons_ne_nil other values

theorem writes_compactMembers (members : List (List Char × Json)) (hnonempty : members ≠ []) :
    WritesMembers members (compactMembers members) := by
  match members with
  | [] => exact absurd rfl hnonempty
  | [(name, value)] =>
    have hmember := WritesMembers.one (spells_flatMap name) (writes_compact value)
    rw [compactMembers, quote, List.append_assoc]
    exact hmember
  | (name, value) :: other :: members =>
    have hmember := WritesMembers.cons (spells_flatMap name) (writes_compact value)
      (writes_compactMembers (other :: members) (List.cons_ne_nil other members))
    rw [compactMembers, quote, List.append_assoc, List.append_assoc]
    · rw [List.append_assoc] at hmember
      exact hmember
    · exact List.cons_ne_nil other members

end

end Compact

end Json

end Foundation
