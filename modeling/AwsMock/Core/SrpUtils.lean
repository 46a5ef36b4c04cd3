import Mathlib.Data.List.TakeWhile
import Mathlib.Data.Nat.Digits.Lemmas
import AwsMock.Core.Http
import AwsMock.Foundation.Hmac
import AwsMock.Foundation.Machine

/-! # Proof values of the password protocol

`SrpUtils::CalcM1FromK` with the digest context of the crypto library as a machine of three
states. The digest of the generator is asked for inside the argument of the update that should
come before it, so the context is finalised while it is still empty.
-/

namespace AwsMock.SrpUtils

open Foundation Machine

/-! ## The library -/

/-- The digest of the library, whether it lets data into a context that is finalised, which its
documentation does not allow, and what an array holds before it is written. -/
structure Library where
  sha1 : Hash
  size_sha1 : sha1.size = 20
  updatesFinalised : Bool
  memory : Bytes
  length_memory : memory.length = 20

inductive Context where
  | new
  | updating (text : Bytes)
  | finalised

namespace Context

/-- `EVP_DigestInit_ex` starts again from every state. -/
def digestInit (_ : Context) : Context := .updating []

/-- `EVP_DigestUpdate`: no data is always accepted. -/
def digestUpdate (lib : Library) (data : Bytes) : Context → Run Context
  | .updating text => .ok (.updating (text ++ data))
  | .finalised =>
    if data = [] ∨ lib.updatesFinalised then .ok .finalised else .error .exception
  | .new => if data = [] then .ok .new else .error .exception

/-- `EVP_DigestFinal_ex` with the digest. -/
def digestFinal (lib : Library) : Context → Option (Bytes × Context)
  | .updating text => some (lib.sha1.digest text, .finalised)
  | .new | .finalised => none

end Context

/-- `BN_bn2bin`: the bytes of a number, the highest one first. -/
def bn2bin (n : Nat) : Bytes := ((Nat.digits 256 n).map UInt8.ofNat).reverse

def bin2bn (bytes : Bytes) : Nat := Nat.ofDigits 256 (bytes.reverse.map UInt8.toNat)

def numBytes (n : Nat) : Nat := (bn2bin n).length

/-- There is no memory of size zero, which an assertion rejects. -/
def malloc (size : Nat) : Run Bytes :=
  if size = 0 then .error .exception else .ok (allocate 0 size)

/-! ## `CalcM1FromK` -/

structure Srp where
  N : Nat
  g : Nat
  salt : Nat
  A : Nat
  B : Nat
  S : Nat
  userName : Bytes

/-- `GetI`, up to the null character at which `strlen` stops. -/
def Srp.getI (srp : Srp) : Bytes := srp.userName.takeWhile (· ≠ 0)

def xorBytes (dig dig2 : Bytes) : Bytes := List.zipWith (· ^^^ ·) dig dig2

/-- A number is written into the buffer and read back by the update. -/
def updateNumber (lib : Library) (n : Nat) (cs : Bytes) (ctxt : Context) :
    Run (Bytes × Context) := do
  let cs ← write cs 0 (bn2bin n)
  let data ← read cs 0 (numBytes n)
  let ctxt ← ctxt.digestUpdate lib data
  return (cs, ctxt)

/-- A call that fails leaves the results unset, which the last assertions reject. -/
def finalDigest (lib : Library) (ctxt : Context) : Run (Bytes × Context) :=
  match ctxt.digestFinal lib with
  | some result => .ok result
  | none => .error .exception

/-- `BN_num_bytes(Getg()) && EVP_DigestFinal_ex(ctxt, dig2, nullptr)` as a number of bytes, with
the array and the context after it. -/
def andFinal (lib : Library) (count : Nat) (dig2 : Bytes) (ctxt : Context) :
    Nat × Bytes × Context :=
  if count = 0 then (0, dig2, ctxt)
  else
    match ctxt.digestFinal lib with
    | some (dig2, ctxt) => (1, dig2, ctxt)
    | none => (0, dig2, ctxt)

/-- The update with the final call inside the argument for its length. -/
def generatorDigest (lib : Library) (g : Nat) (cs : Bytes) (ctxt : Context) :
    Run (Bytes × Bytes × Context) := do
  let cs ← write cs 0 (bn2bin g)
  let (count, dig2, ctxt) := andFinal lib (numBytes g) lib.memory ctxt
  let data ← read cs 0 count
  let ctxt ← ctxt.digestUpdate lib data
  return (cs, dig2, ctxt)

/-- The values of `m_pM1` and `m_pK`. -/
def calcM1FromK (lib : Library) (srp : Srp) : Run (Nat × Nat) := do
  let cs ← malloc (numBytes srp.N)
  -- H(N)
  let (cs, ctxt) ← updateNumber lib srp.N cs Context.new.digestInit
  let (dig, ctxt) ← finalDigest lib ctxt
  -- H(g) -> dig2
  let (cs, dig2, ctxt) ← generatorDigest lib srp.g cs ctxt.digestInit
  let dig := xorBytes dig dig2
  -- H(I) -> dig2
  let ctxt ← ctxt.digestInit.digestUpdate lib srp.getI
  let (dig2, ctxt) ← finalDigest lib ctxt
  -- H(S) -> dig3
  let (cs, ctxt) ← updateNumber lib srp.S cs ctxt.digestInit
  let (dig3, ctxt) ← finalDigest lib ctxt
  -- H(N) ^ H(g) | H(I)
  let ctxt ← ctxt.digestInit.digestUpdate lib dig
  let ctxt ← ctxt.digestUpdate lib dig2
  -- | s | A | B | H(S)
  let (cs, ctxt) ← updateNumber lib srp.salt cs ctxt
  let (cs, ctxt) ← updateNumber lib srp.A cs ctxt
  let (_, ctxt) ← updateNumber lib srp.B cs ctxt
  let ctxt ← ctxt.digestUpdate lib dig3
  let (dig, _) ← finalDigest lib ctxt
  return (bin2bn dig, bin2bn dig3)

/-! ## What is to be computed -/

section Values

variable (lib : Library) (srp : Srp)

/-- `K = H(S)`. -/
def keyDigest : Bytes := lib.sha1.digest (bn2bin srp.S)

/-- `H(N) XOR H(g) | H(I) | s | A | B | K` with what stands for `H(g)` and `I`. -/
def proofText (generatorDigest name : Bytes) : Bytes :=
  xorBytes (lib.sha1.digest (bn2bin srp.N)) generatorDigest ++ (lib.sha1.digest name ++
    (bn2bin srp.salt ++ (bn2bin srp.A ++ (bn2bin srp.B ++ keyDigest lib srp))))

def proofValue (generatorDigest name : Bytes) : Nat :=
  bin2bn (lib.sha1.digest (proofText lib srp generatorDigest name))

def usedDigest (g : Nat) : Bytes := if g = 0 then lib.memory else lib.sha1.digest []

def CalculatesProof : Prop :=
  calcM1FromK lib srp = .ok (proofValue lib srp (lib.sha1.digest (bn2bin srp.g)) srp.userName,
      bin2bn (keyDigest lib srp))

/-- No number is longer than the modulus, in whose size the buffer is. -/
structure FitsBuffer : Prop where
  modulus : srp.N ≠ 0
  g : numBytes srp.g ≤ numBytes srp.N
  S : numBytes srp.S ≤ numBytes srp.N
  salt : numBytes srp.salt ≤ numBytes srp.N
  A : numBytes srp.A ≤ numBytes srp.N
  B : numBytes srp.B ≤ numBytes srp.N

/-- The digest of the empty text is that of the generator, which takes a collision, or the memory
holds it when the generator is zero. -/
def GeneratorMeets : Prop :=
  srp.g = 0 ∧ lib.memory = lib.sha1.digest [] ∨ srp.g ≠ 0 ∧ lib.sha1.Collide [] (bn2bin srp.g)

def NameMeets : Prop := 0 ∉ srp.userName ∨ lib.sha1.Collide srp.getI srp.userName

structure ProofMeets : Prop where
  fits : FitsBuffer srp
  accepted : srp.g ≠ 0 → lib.updatesFinalised
  digests : GeneratorMeets lib srp ∧ NameMeets lib srp ∨
    lib.sha1.Collide (proofText lib srp (usedDigest lib srp.g) srp.getI)
      (proofText lib srp (lib.sha1.digest (bn2bin srp.g)) srp.userName)

end Values

section Numbers

theorem bn2bin_eq_nil_iff {n : Nat} : bn2bin n = [] ↔ n = 0 := by
  rw [bn2bin, List.reverse_eq_nil_iff, List.map_eq_nil_iff, Nat.digits_eq_nil_iff_eq_zero]

theorem numBytes_eq_zero_iff {n : Nat} : numBytes n = 0 ↔ n = 0 := by
  rw [numBytes, List.length_eq_zero_iff, bn2bin_eq_nil_iff]

theorem bin2bn_inj {bytes other : Bytes} (hlength : bytes.length = other.length)
    (heq : bin2bn bytes = bin2bn other) : bytes = other := by
  have hdigits : ∀ text : Bytes, ∀ d ∈ text.reverse.map UInt8.toNat, d < 256 := by
    intro text d hd
    obtain ⟨c, -, rfl⟩ := List.mem_map.mp hd
    exact c.toNat_lt
  have hreverse : bytes.reverse.map UInt8.toNat = other.reverse.map UInt8.toNat :=
    Nat.ofDigits_inj_of_len_eq (by decide) (by simp [hlength]) (hdigits bytes) (hdigits other) heq
  exact List.reverse_inj.mp (List.map_injective_iff.mpr (fun _ _ => UInt8.toNat_inj.mp) hreverse)

theorem length_xorBytes {dig dig2 : Bytes} (hlength : dig2.length = dig.length) :
    (xorBytes dig dig2).length = dig.length := by
  rw [xorBytes, List.length_zipWith, hlength, Nat.min_self]

theorem xorBytes_inj {dig dig2 other : Bytes} (hdig2 : dig2.length = dig.length)
    (hother : other.length = dig.length) (heq : xorBytes dig dig2 = xorBytes dig other) :
    dig2 = other := by
  induction dig generalizing dig2 other with
  | nil => rw [List.length_eq_zero_iff.mp hdig2, List.length_eq_zero_iff.mp hother]
  | cons c dig ih =>
    cases dig2 with
    | nil => cases hdig2
    | cons d dig2 =>
      cases other with
      | nil => cases hother
      | cons e other =>
        obtain ⟨hhead, htail⟩ := List.cons.inj heq
        rw [(UInt8.xor_right_inj c).mp hhead, ih (Nat.succ.inj hdig2) (Nat.succ.inj hother) htail]

end Numbers

section Steps

variable {lib : Library}

variable {cs : Bytes}

theorem write_number {n : Nat} (hle : numBytes n ≤ cs.length) :
    write cs 0 (bn2bin n) = .ok (bn2bin n ++ cs.drop (numBytes n)) := write_start hle

theorem write_number_eq_ok {n : Nat} {cs result : Bytes} :
    write cs 0 (bn2bin n) = .ok result ↔
      numBytes n ≤ cs.length ∧ result = bn2bin n ++ cs.drop (numBytes n) :=
  write_start_eq_ok

theorem read_number (n : Nat) (rest : Bytes) :
    read (bn2bin n ++ rest) 0 (numBytes n) = .ok (bn2bin n) := by
  have hwithin : 0 + numBytes n ≤ (bn2bin n ++ rest).length := by
    rw [Nat.zero_add, List.length_append]
    exact Nat.le_add_right _ _
  rw [Machine.read, if_pos hwithin, List.drop_zero, numBytes, List.take_left]

theorem length_buffer {n : Nat} (hle : numBytes n ≤ cs.length) :
    (bn2bin n ++ cs.drop (numBytes n)).length = cs.length := by
  rw [List.length_append, List.length_drop]
  exact Nat.add_sub_cancel' hle

theorem malloc_eq_ok {size : Nat} :
    malloc size = .ok cs ↔ size ≠ 0 ∧ cs = allocate 0 size := by
  unfold malloc
  split
  next hzero => exact ⟨fun hresult => (nomatch hresult), fun hok => absurd hzero hok.1⟩
  next hsize =>
    exact ⟨fun hresult => ⟨hsize, (Except.ok.inj hresult).symm⟩, fun hok => congrArg _ hok.2.symm⟩

section Continuations

variable {γ : Type} {result : γ}

variable {next : Bytes × Context → Run γ}

theorem updateNumber_bind {n : Nat} {cs text : Bytes} :
    (updateNumber lib n cs (.updating text) >>= next) = .ok result ↔ numBytes n ≤ cs.length ∧
        next (bn2bin n ++ cs.drop (numBytes n), .updating (text ++ bn2bin n)) = .ok result := by
  have hstep : numBytes n ≤ cs.length → updateNumber lib n cs (.updating text) =
      .ok (bn2bin n ++ cs.drop (numBytes n), .updating (text ++ bn2bin n)) := fun hle => by
    rw [updateNumber, write_number hle, ok_bind, read_number]
    rfl
  constructor
  · intro hrun
    obtain ⟨step, hupdate, -⟩ := bind_eq_ok.mp hrun
    obtain ⟨buffer, hwrite, -⟩ := bind_eq_ok.mp hupdate
    have hle := (write_number_eq_ok.mp hwrite).1
    rw [hstep hle, ok_bind] at hrun
    exact ⟨hle, hrun⟩
  · rintro ⟨hle, hnext⟩
    rw [hstep hle, ok_bind]
    exact hnext

theorem digestUpdate_bind (lib : Library) {data text : Bytes} {next : Context → Run γ} :
    ((Context.updating text).digestUpdate lib data >>= next) = .ok result ↔
      next (.updating (text ++ data)) = .ok result := Iff.rfl

theorem finalDigest_bind {text : Bytes} :
    (finalDigest lib (.updating text) >>= next) = .ok result ↔
      next (lib.sha1.digest text, .finalised) = .ok result := Iff.rfl

end Continuations

theorem generatorDigest_eq_ok {g : Nat} {result : Bytes × Bytes × Context} :
    generatorDigest lib g cs (.updating []) = .ok result ↔
      numBytes g ≤ cs.length ∧ (g ≠ 0 → lib.updatesFinalised) ∧
        result = (bn2bin g ++ cs.drop (numBytes g), usedDigest lib g,
          if g = 0 then .updating [] else .finalised) := by
  unfold generatorDigest
  rw [bind_eq_ok]
  simp only [write_number_eq_ok, and_assoc, exists_and_left, exists_eq_left]
  refine and_congr_right fun hle => ?_
  by_cases hzero : g = 0
  · subst hzero
    constructor
    · intro hresult
      exact ⟨fun hnot => absurd rfl hnot, (Except.ok.inj hresult).symm⟩
    · rintro ⟨-, rfl⟩
      rfl
  · have hnumber := mt numBytes_eq_zero_iff.mp hzero
    obtain ⟨c, hread⟩ : ∃ c, read (bn2bin g ++ cs.drop (numBytes g)) 0 1 = .ok [c] := by
      cases hbuffer : bn2bin g with
      | nil => exact absurd (bn2bin_eq_nil_iff.mp hbuffer) hzero
      | cons c rest => exact ⟨c, rfl⟩
    rw [andFinal, if_neg hnumber, usedDigest, if_neg hzero, if_neg hzero]
    change (read _ 0 1 >>= fun data => Context.finalised.digestUpdate lib data >>= fun ctxt =>
      .ok (_, _, ctxt)) = .ok result ↔ _
    rw [hread, ok_bind, Context.digestUpdate]
    split
    next haccepted =>
      have hallowed := haccepted.resolve_left (List.cons_ne_nil _ _)
      exact ⟨fun hresult => ⟨fun _ => hallowed, (Except.ok.inj hresult).symm⟩,
        fun hok => congrArg _ hok.2.symm⟩
    next hrejected =>
      constructor
      · intro hresult
        cases hresult
      · intro hok
        exact absurd (.inr (hok.1 hzero)) hrejected

theorem calcM1FromK_eq_ok {srp : Srp} {result : Nat × Nat} :
    calcM1FromK lib srp = .ok result ↔ FitsBuffer srp ∧ (srp.g ≠ 0 → lib.updatesFinalised) ∧
        (proofValue lib srp (usedDigest lib srp.g) srp.getI,
          bin2bn (keyDigest lib srp)) = result := by
  have hsize : (allocate (0 : UInt8) (numBytes srp.N)).length = numBytes srp.N := by
    rw [length_allocate, Int.toNat_natCast]
  -- the buffer keeps the size that it is allotted with
  have hkeeps : ∀ {n : Nat} {cs : Bytes}, cs.length = numBytes srp.N → numBytes n ≤ cs.length →
      (bn2bin n ++ cs.drop (numBytes n)).length = numBytes srp.N := fun hcs hle =>
    (length_buffer hle).trans hcs
  constructor
  · intro hrun
    obtain ⟨cs, hcs, hrun⟩ := bind_eq_ok.mp hrun
    obtain ⟨hmodulus, rfl⟩ := malloc_eq_ok.mp hcs
    obtain ⟨hN, hrun⟩ := updateNumber_bind.mp hrun
    have hbuffer := hkeeps hsize hN
    have hrun := finalDigest_bind.mp hrun
    obtain ⟨step, hgenerator, hrun⟩ := bind_eq_ok.mp hrun
    obtain ⟨hg, haccepted, rfl⟩ := generatorDigest_eq_ok.mp hgenerator
    have hg' := hg.trans hbuffer.le
    have hbuffer := hkeeps hbuffer hg
    have hrun := finalDigest_bind.mp ((digestUpdate_bind lib).mp hrun)
    obtain ⟨hS, hrun⟩ := updateNumber_bind.mp hrun
    have hS' := hS.trans hbuffer.le
    have hbuffer := hkeeps hbuffer hS
    have hrun := (digestUpdate_bind lib).mp (finalDigest_bind.mp hrun)
    have hrun := (digestUpdate_bind lib).mp hrun
    obtain ⟨hsalt, hrun⟩ := updateNumber_bind.mp hrun
    have hsalt' := hsalt.trans hbuffer.le
    have hbuffer := hkeeps hbuffer hsalt
    obtain ⟨hA, hrun⟩ := updateNumber_bind.mp hrun
    have hA' := hA.trans hbuffer.le
    have hbuffer := hkeeps hbuffer hA
    obtain ⟨hB, hrun⟩ := updateNumber_bind.mp hrun
    have hrun := finalDigest_bind.mp ((digestUpdate_bind lib).mp hrun)
    refine ⟨⟨mt numBytes_eq_zero_iff.mpr hmodulus, hg', hS', hsalt', hA', hB.trans hbuffer.le⟩,
      haccepted, ?_⟩
    simpa only [proofValue, proofText, keyDigest, List.nil_append, List.append_assoc] using
      Except.ok.inj hrun
  · rintro ⟨hfits, haccepted, rfl⟩
    have hmodulus := mt numBytes_eq_zero_iff.mp hfits.modulus
    refine bind_eq_ok.mpr ⟨_, malloc_eq_ok.mpr ⟨hmodulus, rfl⟩, ?_⟩
    refine updateNumber_bind.mpr ⟨hsize.ge, finalDigest_bind.mpr ?_⟩
    have hbuffer := hkeeps hsize hsize.ge
    have hg := hfits.g.trans hbuffer.ge
    refine bind_eq_ok.mpr ⟨_, generatorDigest_eq_ok.mpr ⟨hg, haccepted, rfl⟩, ?_⟩
    have hbuffer := hkeeps hbuffer hg
    refine (digestUpdate_bind lib).mpr (finalDigest_bind.mpr ?_)
    have hS := hfits.S.trans hbuffer.ge
    refine updateNumber_bind.mpr ⟨hS, finalDigest_bind.mpr ?_⟩
    have hbuffer := hkeeps hbuffer hS
    refine (digestUpdate_bind lib).mpr ((digestUpdate_bind lib).mpr ?_)
    have hsalt := hfits.salt.trans hbuffer.ge
    refine updateNumber_bind.mpr ⟨hsalt, ?_⟩
    have hbuffer := hkeeps hbuffer hsalt
    have hA := hfits.A.trans hbuffer.ge
    refine updateNumber_bind.mpr ⟨hA, ?_⟩
    have hbuffer := hkeeps hbuffer hA
    refine updateNumber_bind.mpr ⟨hfits.B.trans hbuffer.ge, ?_⟩
    refine (digestUpdate_bind lib).mpr (finalDigest_bind.mpr ?_)
    simp only [proofValue, proofText, keyDigest, List.nil_append, List.append_assoc]
    rfl

end Steps

section Correctness

variable {lib : Library} {srp : Srp}

theorem length_usedDigest (g : Nat) : (usedDigest lib g).length = 20 := by
  unfold usedDigest
  split
  next => exact lib.length_memory
  next => rw [Hash.length_digest, lib.size_sha1]

theorem usedDigest_eq_iff :
    usedDigest lib srp.g = lib.sha1.digest (bn2bin srp.g) ↔ GeneratorMeets lib srp := by
  unfold usedDigest GeneratorMeets Hash.Collide
  split
  next hzero => simp [hzero, bn2bin]
  next hzero => simp [hzero, Ne.symm (mt bn2bin_eq_nil_iff.mp hzero)]

theorem digest_getI_eq_iff :
    lib.sha1.digest srp.getI = lib.sha1.digest srp.userName ↔ NameMeets lib srp := by
  have hname : srp.getI = srp.userName ↔ 0 ∉ srp.userName := by
    rw [Srp.getI, List.takeWhile_eq_self_iff]
    simp only [decide_eq_true_eq]
    exact ⟨fun hall hmem => hall 0 hmem rfl, fun hnot c hc heq => hnot (heq ▸ hc)⟩
  rw [NameMeets, ← hname, Hash.Collide]
  by_cases heq : srp.getI = srp.userName
  · simp [heq]
  · simp [heq]

theorem proofText_eq_iff {generatorDigest other name otherName : Bytes}
    (hdigest : generatorDigest.length = 20) (hother : other.length = 20) :
    proofText lib srp generatorDigest name = proofText lib srp other otherName ↔
      generatorDigest = other ∧ lib.sha1.digest name = lib.sha1.digest otherName := by
  have hmodulus : (lib.sha1.digest (bn2bin srp.N)).length = 20 := by
    rw [Hash.length_digest, lib.size_sha1]
  constructor
  · intro heq
    have hlength : ∀ {digest : Bytes}, digest.length = 20 →
        (xorBytes (lib.sha1.digest (bn2bin srp.N)) digest).length = 20 := fun h =>
      (length_xorBytes (h.trans hmodulus.symm)).trans hmodulus
    obtain ⟨hxor, hrest⟩ := List.append_inj heq ((hlength hdigest).trans (hlength hother).symm)
    have hnames : (lib.sha1.digest name).length = (lib.sha1.digest otherName).length := by
      rw [Hash.length_digest, Hash.length_digest]
    exact ⟨xorBytes_inj (hdigest.trans hmodulus.symm) (hother.trans hmodulus.symm) hxor,
      (List.append_inj hrest hnames).1⟩
  · rintro ⟨rfl, hname⟩
    rw [proofText, proofText, hname]

/-- The values are those of the comment exactly then. -/
theorem calculatesProof_iff (lib : Library) (srp : Srp) :
    CalculatesProof lib srp ↔ ProofMeets lib srp := by
  have htexts := @proofText_eq_iff lib srp (usedDigest lib srp.g)
    (lib.sha1.digest (bn2bin srp.g)) srp.getI srp.userName (length_usedDigest srp.g)
    (by rw [Hash.length_digest, lib.size_sha1])
  have hvalues : proofValue lib srp (usedDigest lib srp.g) srp.getI =
      proofValue lib srp (lib.sha1.digest (bn2bin srp.g)) srp.userName ↔
      lib.sha1.digest (proofText lib srp (usedDigest lib srp.g) srp.getI) =
        lib.sha1.digest (proofText lib srp (lib.sha1.digest (bn2bin srp.g)) srp.userName) := by
    refine ⟨bin2bn_inj ?_, fun heq => congrArg bin2bn heq⟩
    rw [Hash.length_digest, Hash.length_digest]
  rw [CalculatesProof, calcM1FromK_eq_ok, Prod.mk.injEq, hvalues]
  constructor
  · rintro ⟨hfits, haccepted, hdigests, -⟩
    refine ⟨hfits, haccepted, ?_⟩
    by_cases heq : proofText lib srp (usedDigest lib srp.g) srp.getI =
        proofText lib srp (lib.sha1.digest (bn2bin srp.g)) srp.userName
    · exact .inl ((htexts.mp heq).imp usedDigest_eq_iff.mp digest_getI_eq_iff.mp)
    · exact .inr ⟨heq, hdigests⟩
  · rintro ⟨hfits, haccepted, hmeets | hcollide⟩
    · have heq := htexts.mpr (hmeets.imp usedDigest_eq_iff.mpr digest_getI_eq_iff.mpr)
      exact ⟨hfits, haccepted, congrArg _ heq, rfl⟩
    · exact ⟨hfits, haccepted, hcollide.2, rfl⟩

/-- The first bytes of a text, for a library that accepts every update. -/
def prefixLibrary : Library where
  sha1 :=
    { digest := fun text => text.take 20 ++ List.replicate (20 - text.length) 0
      blockSize := 64
      size := 20
      length_digest := fun text => by
        rw [List.length_append, List.length_take, List.length_replicate]
        omega
      size_le := by decide }
  size_sha1 := rfl
  updatesFinalised := true
  memory := List.replicate 20 0
  length_memory := rfl

def smallSrp : Srp where
  N := 23
  g := 2
  salt := 3
  A := 4
  B := 5
  S := 6
  userName := ascii "alice"

/-- The digest of the empty text is not that of the generator. -/
theorem not_calculatesProof : ¬CalculatesProof prefixLibrary smallSrp := by
  intro hproof
  have hvalues := congrArg Prod.fst (calcM1FromK_eq_ok.mp hproof).2.2
  have hdigests := bin2bn_inj (by rw [Hash.length_digest, Hash.length_digest]) hvalues
  have hbytes : bn2bin 23 = [23] ∧ bn2bin 2 = [2] := by
    constructor <;> simp [bn2bin]
  have hheads := congrArg List.head? hdigests
  simp [proofText, usedDigest, smallSrp, prefixLibrary, hbytes, xorBytes] at hheads
  exact absurd hheads (by decide)

end Correctness

end AwsMock.SrpUtils
