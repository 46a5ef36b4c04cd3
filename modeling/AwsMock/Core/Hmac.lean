import AwsMock.Core.SignatureText
import AwsMock.Foundation.Hmac
import AwsMock.Foundation.Machine

/-! # Message authentication codes

The helpers of `CryptoUtils` for codes with the hash functions of the SHA-2 family. Three of
them use the hashes of one library and two the function of another one, which takes the key
before the message and sizes as integers of 32 bits.
-/

namespace AwsMock.Crypto

open Foundation Machine

structure HashFunctions where
  sha224 : Hash
  sha256 : Hash
  sha384 : Hash
  sha512 : Hash
  size_sha224 : sha224.size = 28
  size_sha256 : sha256.size = 32
  size_sha384 : sha384.size = 48
  size_sha512 : sha512.size = 64

/-! ## The libraries -/

/-- `HMAC` writes the code behind the address that it is given and says how long it is. Behind a
negative size there is no text; as the size of a message it becomes a very large one. -/
def hmac (md : Hash) (key : Bytes) (keyLength : Int) (data : Bytes) (length : Int)
    (buffer : Bytes) : Run (Bytes × Nat) :=
  if keyLength < 0 ∨ length < 0 then .error .outOfRange
  else do
    let code := md.hmac (key.take keyLength.toNat) (data.take length.toNat)
    let buffer ← write buffer 0 code
    return (buffer, code.length)

/-! ## The helpers -/

def cryptoHmac256BlockSize : Nat := 32

def evpMaxMdSize : Nat := 64

section Helpers

variable (hashes : HashFunctions) (key content : Bytes)

def getHmacSha224FromString : Bytes := hexEncode (hashes.sha224.hmac key content)

def getHmacSha384FromString : Bytes := hexEncode (hashes.sha384.hmac key content)

def getHmacSha512FromString : Bytes := hexEncode (hashes.sha512.keyed.hmac key content)

def getHmacSha256FromString : Run Bytes := do
  let (hash, hashLen) ← hmac hashes.sha256 content (toInt content.length) key (toInt key.length)
    (allocate 0 evpMaxMdSize)
  return hexEncode (hash.take hashLen)

def getHmacSha256FromArray : Run Bytes := do
  let (hash, _) ← hmac hashes.sha256 content (toInt content.length) key key.length
    (allocate 0 evpMaxMdSize)
  return hexEncode hash

def getHmacSha256FromStringRaw (msg : Bytes) : Run Bytes := do
  let (hash, hashLen) ← hmac hashes.sha256 key (toInt key.length) msg (toInt msg.length)
    (allocate 0 cryptoHmac256BlockSize)
  return hash.take hashLen

/-- What the helpers are for: the code of the content under the key, in hexadecimal digits. The
overload for arrays has keys of one size. -/
structure HelpersCorrect : Prop where
  sha224 : getHmacSha224FromString hashes key content = hexEncode (hashes.sha224.hmac key content)
  sha256 : getHmacSha256FromString hashes key content =
    .ok (hexEncode (hashes.sha256.hmac key content))
  sha256Array : key.length = cryptoHmac256BlockSize →
    getHmacSha256FromArray hashes key content = .ok (hexEncode (hashes.sha256.hmac key content))
  sha256Raw : getHmacSha256FromStringRaw hashes key content = .ok (hashes.sha256.hmac key content)
  sha384 : getHmacSha384FromString hashes key content = hexEncode (hashes.sha384.hmac key content)
  sha512 : getHmacSha512FromString hashes key content = hexEncode (hashes.sha512.hmac key content)

end Helpers

def cut (text : Bytes) : Bytes := text.take (toInt text.length).toNat

/-- Key and message in the order of a call give the code for another key and message. -/
def Passes (hash : Hash) (key message otherKey otherMessage : Bytes) : Prop :=
  0 ≤ toInt key.length ∧ 0 ≤ toInt message.length ∧
    hash.Agrees (cut key) (cut message) otherKey otherMessage

/-- When the helpers are right: the key is none for arrays, SHA-256 gives the same code for key
and content in either order, and SHA-512 the same code for the key and the content as for the
empty key and the text that a code is made of with the code as the hash. -/
structure HelpersMeet (hashes : HashFunctions) (key content : Bytes) : Prop where
  array : key.length ≠ cryptoHmac256BlockSize
  swapped : Passes hashes.sha256 content key key content
  inOrder : Passes hashes.sha256 key content key content
  nested : hashes.sha512.Agrees [] (hashes.sha512.keyed.outerText key content) key content

section Calls

theorem length_hexEncode (digest : Bytes) : (hexEncode digest).length = 2 * digest.length := by
  rw [hexEncode, List.length_flatMap]
  simp [Nat.mul_comm]

variable {hash : Hash} {key message otherKey otherMessage buffer : Bytes}

theorem hmac_eq_ok {keyLength length : Int} {result : Bytes × Nat}
    (hsize : hash.size ≤ buffer.length) :
    hmac hash key keyLength message length buffer = .ok result ↔ (0 ≤ keyLength ∧ 0 ≤ length) ∧
        result = (hash.hmac (key.take keyLength.toNat) (message.take length.toNat) ++
          buffer.drop hash.size, hash.size) := by
  unfold hmac
  split
  next hnegative =>
    constructor
    · intro hresult
      cases hresult
    · rintro ⟨⟨hkey, hlength⟩, -⟩
      omega
  next hnot =>
    dsimp only
    rw [write_start (by rwa [Hash.length_hmac]), ok_bind, Hash.length_hmac]
    constructor
    · intro hresult
      exact ⟨by omega, (Except.ok.inj hresult).symm⟩
    · rintro ⟨-, rfl⟩
      rfl

theorem hmac_then_eq_ok {view : Bytes → Bytes} (hview : Function.Injective view)
    (hsize : hash.size ≤ buffer.length) :
    (do
      let (written, hashLen) ←
        hmac hash key (toInt key.length) message (toInt message.length) buffer
      return view (written.take hashLen) : Run Bytes) =
        .ok (view (hash.hmac otherKey otherMessage)) ↔
      Passes hash key message otherKey otherMessage := by
  rw [bind_eq_ok]
  constructor
  · rintro ⟨result, hcall, hresult⟩
    obtain ⟨⟨hkey, hmessage⟩, rfl⟩ := (hmac_eq_ok hsize).mp hcall
    refine ⟨hkey, hmessage, Hash.hmac_eq_iff.mp ?_⟩
    have hcodes := hview (Except.ok.inj hresult)
    rwa [List.take_left' (Hash.length_hmac _ _ _)] at hcodes
  · rintro ⟨hkey, hmessage, hagrees⟩
    refine ⟨_, (hmac_eq_ok hsize).mpr ⟨⟨hkey, hmessage⟩, rfl⟩, ?_⟩
    change Except.ok (view (List.take hash.size _)) = _
    rw [List.take_left' (Hash.length_hmac _ _ _)]
    exact congrArg (Except.ok ∘ view) (Hash.hmac_eq_iff.mpr hagrees)

end Calls

section Correctness

variable {hashes : HashFunctions} {key content : Bytes}

theorem getHmacSha256FromString_correct_iff :
    getHmacSha256FromString hashes key content = .ok (hexEncode (hashes.sha256.hmac key content)) ↔
      Passes hashes.sha256 content key key content := by
  refine hmac_then_eq_ok hexEncode_injective ?_
  rw [hashes.size_sha256, length_allocate]
  decide

theorem getHmacSha256FromStringRaw_correct_iff :
    getHmacSha256FromStringRaw hashes key content = .ok (hashes.sha256.hmac key content) ↔
      Passes hashes.sha256 key content key content := by
  refine @hmac_then_eq_ok _ _ _ _ _ _ id Function.injective_id ?_
  rw [hashes.size_sha256, length_allocate]
  decide

theorem getHmacSha256FromArray_ne {code : Bytes} (hcode : code.length = 32) :
    getHmacSha256FromArray hashes key content ≠ .ok (hexEncode code) := by
  intro hresult
  obtain ⟨result, hcall, hresult⟩ := bind_eq_ok.mp hresult
  have hsize : hashes.sha256.size ≤ (allocate (0 : UInt8) evpMaxMdSize).length := by
    rw [hashes.size_sha256, length_allocate]
    decide
  obtain ⟨-, rfl⟩ := (hmac_eq_ok hsize).mp hcall
  have hencoded := congrArg List.length (Except.ok.inj hresult)
  rw [length_hexEncode, length_hexEncode, List.length_append, Hash.length_hmac, List.length_drop,
    length_allocate, hashes.size_sha256, hcode] at hencoded
  exact absurd hencoded (by decide)

theorem getHmacSha512FromString_correct_iff :
    getHmacSha512FromString hashes key content = hexEncode (hashes.sha512.hmac key content) ↔
      hashes.sha512.Agrees [] (hashes.sha512.keyed.outerText key content) key content := by
  rw [getHmacSha512FromString, hexEncode_injective.eq_iff, Hash.hmac_keyed, Hash.hmac_eq_iff]

theorem hmacHelpers_correct_iff (hashes : HashFunctions) (key content : Bytes) :
    HelpersCorrect hashes key content ↔ HelpersMeet hashes key content := by
  constructor
  · intro hcorrect
    refine ⟨fun harray => ?_, getHmacSha256FromString_correct_iff.mp hcorrect.sha256,
      getHmacSha256FromStringRaw_correct_iff.mp hcorrect.sha256Raw,
      getHmacSha512FromString_correct_iff.mp hcorrect.sha512⟩
    refine getHmacSha256FromArray_ne ?_ (hcorrect.sha256Array harray)
    rw [Hash.length_hmac, hashes.size_sha256]
  · intro hmeet
    exact ⟨rfl, getHmacSha256FromString_correct_iff.mpr hmeet.swapped,
      fun harray => absurd harray hmeet.array,
      getHmacSha256FromStringRaw_correct_iff.mpr hmeet.inOrder, rfl,
      getHmacSha512FromString_correct_iff.mpr hmeet.nested⟩

def prefixHash (blockSize size : Nat) (hle : size ≤ blockSize) : Hash where
  digest text := text.take size ++ List.replicate (size - text.length) 0
  blockSize := blockSize
  size := size
  length_digest text := by
    rw [List.length_append, List.length_take, List.length_replicate]
    omega
  size_le := hle

def prefixHashes : HashFunctions where
  sha224 := prefixHash 64 28 (by decide)
  sha256 := prefixHash 64 32 (by decide)
  sha384 := prefixHash 128 48 (by decide)
  sha512 := prefixHash 128 64 (by decide)
  size_sha224 := rfl
  size_sha256 := rfl
  size_sha384 := rfl
  size_sha512 := rfl

set_option maxRecDepth 8192 in
/-- With key and content exchanged the code is another one. -/
theorem not_hmacHelpers_correct : ¬HelpersCorrect prefixHashes (ascii "key") (ascii "content") := by
  intro hcorrect
  exact absurd hcorrect.sha256 (by decide)

end Correctness

end AwsMock.Crypto
