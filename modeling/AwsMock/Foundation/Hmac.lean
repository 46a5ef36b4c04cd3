import Mathlib.Data.List.Basic

/-! # Keyed hashes

A hash function and the code of a message under a key that is built from it: the key is
brought to the size of a block, and the message is hashed behind one form of the block and the
result behind another. Two codes are equal when keys and messages are the same in this sense,
and otherwise only through a collision.
-/

namespace Foundation

structure Hash where
  digest : List UInt8 → List UInt8
  blockSize : Nat
  size : Nat
  length_digest : ∀ text, (digest text).length = size
  size_le : size ≤ blockSize

namespace Hash

variable (hash : Hash)

def Collide (text other : List UInt8) : Prop :=
  text ≠ other ∧ hash.digest text = hash.digest other

/-- A key that is longer than a block is hashed, and one that is shorter is filled up. -/
def blockKey (key : List UInt8) : List UInt8 :=
  let short := if key.length ≤ hash.blockSize then key else hash.digest key
  short ++ List.replicate (hash.blockSize - short.length) 0

def masked (mask : UInt8) (block : List UInt8) : List UInt8 := block.map (· ^^^ mask)

def innerText (key message : List UInt8) : List UInt8 :=
  masked 0x36 (hash.blockKey key) ++ message

def outerText (key message : List UInt8) : List UInt8 :=
  masked 0x5c (hash.blockKey key) ++ hash.digest (hash.innerText key message)

def hmac (key message : List UInt8) : List UInt8 := hash.digest (hash.outerText key message)

/-- The codes of two messages meet although key and message are not the same. -/
def HmacCollision (key message otherKey otherMessage : List UInt8) : Prop :=
  hash.Collide (hash.outerText key message) (hash.outerText otherKey otherMessage) ∨
    hash.blockKey key = hash.blockKey otherKey ∧
      hash.Collide (hash.innerText key message) (hash.innerText otherKey otherMessage)

def Agrees (key message otherKey otherMessage : List UInt8) : Prop :=
  hash.blockKey key = hash.blockKey otherKey ∧ message = otherMessage ∨
    hash.HmacCollision key message otherKey otherMessage

theorem length_hmac (key message : List UInt8) : (hash.hmac key message).length = hash.size :=
  hash.length_digest _

def keyed : Hash where
  digest := hash.hmac []
  blockSize := hash.blockSize
  size := hash.size
  length_digest := hash.length_hmac []
  size_le := hash.size_le

theorem length_blockKey (key : List UInt8) : (hash.blockKey key).length = hash.blockSize := by
  have hshort : (if key.length ≤ hash.blockSize then key else hash.digest key).length ≤
      hash.blockSize := by
    split
    next hle => exact hle
    next =>
      rw [hash.length_digest]
      exact hash.size_le
  rw [blockKey, List.length_append, List.length_replicate, Nat.add_sub_cancel' hshort]

theorem length_masked (mask : UInt8) (block : List UInt8) :
    (masked mask block).length = block.length :=
  List.length_map _

theorem masked_injective (mask : UInt8) : Function.Injective (masked mask) :=
  List.map_injective_iff.mpr fun _ _ => (UInt8.xor_left_inj mask).mp

variable {hash} {key message otherKey otherMessage : List UInt8}

theorem masked_append_inj {mask : UInt8} {text other : List UInt8}
    (heq : masked mask (hash.blockKey key) ++ text = masked mask (hash.blockKey otherKey) ++ other) :
    hash.blockKey key = hash.blockKey otherKey ∧ text = other := by
  have hlength : (masked mask (hash.blockKey key)).length =
      (masked mask (hash.blockKey otherKey)).length := by
    rw [length_masked, length_masked, length_blockKey, length_blockKey]
  obtain ⟨hmasked, htext⟩ := List.append_inj heq hlength
  exact ⟨masked_injective mask hmasked, htext⟩

theorem hmac_eq_iff :
    hash.hmac key message = hash.hmac otherKey otherMessage ↔
      hash.Agrees key message otherKey otherMessage := by
  constructor
  · intro hcodes
    by_cases houter : hash.outerText key message = hash.outerText otherKey otherMessage
    · obtain ⟨hkeys, hdigests⟩ := masked_append_inj houter
      by_cases hinner : hash.innerText key message = hash.innerText otherKey otherMessage
      · exact .inl ⟨hkeys, (masked_append_inj hinner).2⟩
      · exact .inr (.inr ⟨hkeys, hinner, hdigests⟩)
    · exact .inr (.inl ⟨houter, hcodes⟩)
  · rintro (⟨hkeys, rfl⟩ | hcollide | ⟨hkeys, hcollide⟩)
    · rw [hmac, hmac, outerText, outerText, innerText, innerText, hkeys]
    · exact hcollide.2
    · rw [hmac, hmac, outerText, outerText, hkeys, hcollide.2]

theorem hmac_keyed (key message : List UInt8) :
    hash.keyed.hmac key message = hash.hmac [] (hash.keyed.outerText key message) := rfl

end Hash

end Foundation
