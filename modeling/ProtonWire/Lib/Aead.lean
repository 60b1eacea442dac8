import Mathlib

/-!
# Authenticated encryption

A cipher under one key, over nonces `ν` and associated data `α`, and what a program that stores
ciphertexts relies on.

* `Correct`: what is sealed opens, has a tag, and opens under no other associated data in use;
* `tagged`: a message behind a tag that is made of the associated data and the message's length;
* `tagged_correct`: such a cipher is correct if its tags tell the associated data in use apart.
-/

/-- A cipher. Only a plaintext that is too long is not encrypted. -/
structure Aead (ν α : Type*) where
  encrypt : ν → α → List UInt8 → Option (List UInt8)
  decrypt : ν → α → List UInt8 → Option (List UInt8)

namespace Aead

variable {ν α : Type*}

/-- Opening inverts sealing, sealing adds a tag, and of the associated data in use no other
opens. -/
structure Correct (A : Aead ν α) (tagLen limit : ℕ) (names : List α) : Prop where
  encrypts : ∀ nonce aad message, message.length ≤ limit →
    ∃ ciphertext, A.encrypt nonce aad message = some ciphertext
  decrypts : ∀ nonce aad message ciphertext, A.encrypt nonce aad message = some ciphertext →
    A.decrypt nonce aad ciphertext = some message
  length : ∀ nonce aad message ciphertext, A.encrypt nonce aad message = some ciphertext →
    ciphertext.length = message.length + tagLen
  binds : ∀ nonce, ∀ aad ∈ names, ∀ message ciphertext,
    A.encrypt nonce aad message = some ciphertext →
      ∀ aad' ∈ names, aad' ≠ aad → A.decrypt nonce aad' ciphertext = none

/-- A message behind its tag. -/
def tagged (tag : α → ℕ → List UInt8) (limit : ℕ) : Aead ν α where
  encrypt _ aad message :=
    if message.length ≤ limit then some (tag aad message.length ++ message) else none
  decrypt _ aad ciphertext :=
    let tagLen := (tag aad 0).length
    if ciphertext.take tagLen = tag aad (ciphertext.length - tagLen) then
    some (ciphertext.drop tagLen)
    else none

variable {tag : α → ℕ → List UInt8} {tagLen limit : ℕ} {names : List α} {nonce : ν} {aad : α}

theorem tagged_encrypt {message ciphertext : List UInt8}
    (h : (tagged tag limit).encrypt nonce aad message = some ciphertext) :
    ciphertext = tag aad message.length ++ message := by
  simp only [tagged] at h
  split_ifs at h
  cases h
  rfl

theorem tagged_decrypt (htag : ∀ aad n, (tag aad n).length = tagLen) (front message : List UInt8)
    (hfront : front.length = tagLen) :
    (tagged tag limit : Aead ν α).decrypt nonce aad (front ++ message) =
      if front = tag aad message.length then some message else none := by
  simp only [tagged, htag, List.length_append, hfront, Nat.add_sub_cancel_left]
  rw [← hfront, List.take_left, List.drop_left]

/-- **A tagged cipher is correct** if no two tags of the associated data in use are the same. -/
theorem tagged_correct (htag : ∀ aad n, (tag aad n).length = tagLen)
    (hnames : ∀ aad ∈ names, ∀ aad' ∈ names, ∀ n m, tag aad n = tag aad' m → aad = aad') :
    (tagged tag limit : Aead ν α).Correct tagLen limit names where
  encrypts nonce aad message hlen := ⟨_, if_pos hlen⟩
  decrypts nonce aad message ciphertext h := by
    rw [tagged_encrypt h, tagged_decrypt htag _ _ (htag _ _), if_pos rfl]
  length nonce aad message ciphertext h := by
    rw [tagged_encrypt h, List.length_append, htag, Nat.add_comm]
  binds nonce aad haad message ciphertext h aad' haad' hne := by
    rw [tagged_encrypt h, tagged_decrypt htag _ _ (htag _ _), if_neg]
    exact fun heq => hne (hnames aad haad aad' haad' _ _ heq).symm

end Aead
