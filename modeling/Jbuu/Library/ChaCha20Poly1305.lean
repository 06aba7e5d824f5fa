/-
# Library.ChaCha20Poly1305 — the cipher, computed

ChaCha20 with a 32-bit block counter and a 96-bit nonce, Poly1305 modulo `2^130 - 5`, and the
authenticated encryption made of the two: block 0 is the one-time key of the tag, the text is
xored with the blocks from 1 on, and the tag covers associated data and ciphertext, each padded to
16 bytes, and their lengths. Words and numbers are little-endian.

What the sessions need is a key stream as long as the text: then xoring twice gives the text back
(`decrypt_encrypt`) and the length stays (`length_of_encrypt`).
-/
import Mathlib.Tactic.Common
import Jbuu.Library.BigEndian

namespace Jbuu.Library.ChaCha20Poly1305

set_option autoImplicit false

open Jbuu.Library.BigEndian (Bytes Exactly)

/-! ## Little-endian numbers -/

def littleEndian (bytes : Bytes) : Nat := BigEndian.decode bytes.reverse

def littleEndianBytes (width n : Nat) : Bytes := (BigEndian.encode width n).reverse

@[simp] theorem length_littleEndianBytes (width n : Nat) : (littleEndianBytes width n).length = width := by
  simp [littleEndianBytes]

/-- The first `n` words of a byte string. -/
def words (n : Nat) (bytes : Bytes) : List UInt32 :=
  (List.range n).map fun i => UInt32.ofNat (littleEndian ((bytes.drop (4 * i)).take 4))

@[simp] theorem length_words (n : Nat) (bytes : Bytes) : (words n bytes).length = n := by
  simp [words]

/-! ## ChaCha20 -/

def rotateLeft (w : UInt32) (n : UInt32) : UInt32 := (w <<< n) ||| (w >>> (32 - n))

def quarterRound (a b c d : UInt32) : UInt32 × UInt32 × UInt32 × UInt32 :=
  let a := a + b
  let d := rotateLeft (d ^^^ a) 16
  let c := c + d
  let b := rotateLeft (b ^^^ c) 12
  let a := a + b
  let d := rotateLeft (d ^^^ a) 8
  let c := c + d
  let b := rotateLeft (b ^^^ c) 7
  (a, b, c, d)

/-- The quarter round on four places of the state. -/
def quarterAt (i j k l : Nat) (state : List UInt32) : List UInt32 :=
  let turned := quarterRound (state.getD i 0) (state.getD j 0) (state.getD k 0) (state.getD l 0)
  (((state.set i turned.1).set j turned.2.1).set k turned.2.2.1).set l turned.2.2.2

/-- The four columns, then the four diagonals. -/
def doubleRound (state : List UInt32) : List UInt32 :=
  let columns := quarterAt 3 7 11 15 (quarterAt 2 6 10 14 (quarterAt 1 5 9 13 (quarterAt 0 4 8 12 state)))
  quarterAt 3 4 9 14 (quarterAt 2 7 8 13 (quarterAt 1 6 11 12 (quarterAt 0 5 10 15 columns)))

def doubleRounds : Nat → List UInt32 → List UInt32
  | 0, state => state
  | n + 1, state => doubleRounds n (doubleRound state)

@[simp] theorem length_quarterAt (i j k l : Nat) (state : List UInt32) :
    (quarterAt i j k l state).length = state.length := by
  simp [quarterAt]

@[simp] theorem length_doubleRounds (n : Nat) (state : List UInt32) :
    (doubleRounds n state).length = state.length := by
  induction n generalizing state with
  | zero => rfl
  | succ n ih => simp [doubleRounds, ih, doubleRound]

/-- The state before the rounds: the ASCII of `expand 32-byte k`, the key, the counter, the nonce. -/
def initial (key : Exactly 32) (counter : UInt32) (nonce : Exactly 12) : List UInt32 :=
  [0x61707865, 0x3320646e, 0x79622d32, 0x6b206574] ++ (words 8 key.val ++ (counter :: words 3 nonce.val))

def serialize : List UInt32 → Bytes
  | [] => []
  | w :: rest => littleEndianBytes 4 w.toNat ++ serialize rest

@[simp] theorem length_serialize (state : List UInt32) : (serialize state).length = 4 * state.length := by
  induction state with
  | nil => rfl
  | cons w rest ih =>
      simp [serialize, ih]
      omega

def block (key : Exactly 32) (counter : UInt32) (nonce : Exactly 12) : Bytes :=
  let start := initial key counter nonce
  serialize (List.zipWith (· + ·) start (doubleRounds 10 start))

@[simp] theorem length_block (key : Exactly 32) (counter : UInt32) (nonce : Exactly 12) :
    (block key counter nonce).length = 64 := by
  simp [block, initial]

/-- The key stream of `blocks` blocks from a counter on. -/
def keyStream (key : Exactly 32) (nonce : Exactly 12) : (blocks : Nat) → (counter : UInt32) → Bytes
  | 0, _ => []
  | blocks + 1, counter => block key counter nonce ++ keyStream key nonce blocks (counter + 1)

@[simp] theorem length_keyStream (key : Exactly 32) (nonce : Exactly 12) (blocks : Nat) (counter : UInt32) :
    (keyStream key nonce blocks counter).length = 64 * blocks := by
  induction blocks generalizing counter with
  | zero => rfl
  | succ blocks ih =>
      simp [keyStream, ih]
      omega

/-- The text xored with the key stream from block 1 on. -/
def applyKeyStream (key : Exactly 32) (nonce : Exactly 12) (text : Bytes) : Bytes :=
  List.zipWith (· ^^^ ·) text (keyStream key nonce (text.length / 64 + 1) 1)

@[simp] theorem length_applyKeyStream (key : Exactly 32) (nonce : Exactly 12) (text : Bytes) :
    (applyKeyStream key nonce text).length = text.length := by
  simp [applyKeyStream]
  omega

theorem zipWith_xor_zipWith_xor {text stream : Bytes} (long : text.length ≤ stream.length) :
    List.zipWith (· ^^^ ·) (List.zipWith (· ^^^ ·) text stream) stream = text := by
  induction text generalizing stream with
  | nil => rfl
  | cons byte rest ih =>
      cases stream with
      | nil => simp at long
      | cons key stream =>
          have shorter : rest.length ≤ stream.length := by simpa using long
          simp [ih shorter, UInt8.xor_assoc]

/-- Xoring twice gives the text back. -/
theorem applyKeyStream_applyKeyStream (key : Exactly 32) (nonce : Exactly 12) (text : Bytes) :
    applyKeyStream key nonce (applyKeyStream key nonce text) = text := by
  rw [applyKeyStream, length_applyKeyStream, applyKeyStream]
  apply zipWith_xor_zipWith_xor
  rw [length_keyStream]
  omega

/-! ## Poly1305 -/

/-- The blocks of 16 bytes, each with a bit above it, as a polynomial in `r`. -/
def absorb (r : Nat) : (blocks : Nat) → (message : Bytes) → (acc : Nat) → Nat
  | 0, _, acc => acc
  | blocks + 1, message, acc =>
      absorb r blocks (message.drop 16) ((acc + littleEndian (message.take 16 ++ [1])) * r % (2 ^ 130 - 5))

def poly1305 (key message : Bytes) : Exactly 16 :=
  let r := littleEndian (key.take 16) &&& 0x0ffffffc0ffffffc0ffffffc0fffffff
  let s := littleEndian (key.drop 16)
  ⟨littleEndianBytes 16 (absorb r ((message.length + 15) / 16) message 0 + s), by simp⟩

/-! ## Both -/

/-- Zeros up to a whole number of 16 bytes. -/
def padded (bytes : Bytes) : Bytes := bytes ++ List.replicate ((16 - bytes.length % 16) % 16) 0

def tagOf (key : Exactly 32) (nonce : Exactly 12) (aad ciphertext : Bytes) : Exactly 16 :=
  poly1305 ((block key 0 nonce).take 32)
    (padded aad ++ (padded ciphertext ++ (littleEndianBytes 8 aad.length ++
      littleEndianBytes 8 ciphertext.length)))

/-- The text whose blocks the counter can count. -/
def Countable (text : Bytes) : Prop := text.length / 64 < 2 ^ 32 - 1

instance : DecidablePred Countable := fun _ => inferInstanceAs (Decidable (_ < _))

def encrypt (key : Exactly 32) (nonce : Exactly 12) (aad plaintext : Bytes) : Option (Bytes × Exactly 16) :=
  if Countable plaintext then
    let ciphertext := applyKeyStream key nonce plaintext
    some (ciphertext, tagOf key nonce aad ciphertext)
  else none

def decrypt (key : Exactly 32) (nonce : Exactly 12) (aad ciphertext : Bytes) (tag : Exactly 16) :
    Option Bytes :=
  if Countable ciphertext ∧ tagOf key nonce aad ciphertext = tag then
    some (applyKeyStream key nonce ciphertext)
  else none

section Laws

variable {key : Exactly 32} {nonce : Exactly 12} {aad plaintext ciphertext : Bytes} {tag : Exactly 16}

theorem encrypt_eq_some : encrypt key nonce aad plaintext = some (ciphertext, tag) ↔
    Countable plaintext ∧ ciphertext = applyKeyStream key nonce plaintext ∧
      tag = tagOf key nonce aad ciphertext := by
  unfold encrypt
  split
  · rename_i short
    simp only [Option.some.injEq, Prod.mk.injEq, short, true_and]
    constructor
    · rintro ⟨rfl, rfl⟩
      exact ⟨rfl, rfl⟩
    · rintro ⟨rfl, rfl⟩
      exact ⟨rfl, rfl⟩
  · rename_i long
    simp [long]

/-- **What was sealed opens.** -/
theorem decrypt_encrypt (sealed : encrypt key nonce aad plaintext = some (ciphertext, tag)) :
    decrypt key nonce aad ciphertext tag = some plaintext := by
  obtain ⟨short, rfl, rfl⟩ := encrypt_eq_some.mp sealed
  have still : Countable (applyKeyStream key nonce plaintext) := by
    rwa [Countable, length_applyKeyStream]
  rw [decrypt, if_pos ⟨still, rfl⟩, applyKeyStream_applyKeyStream]

theorem length_of_encrypt (sealed : encrypt key nonce aad plaintext = some (ciphertext, tag)) :
    ciphertext.length = plaintext.length := by
  obtain ⟨-, rfl, -⟩ := encrypt_eq_some.mp sealed
  exact length_applyKeyStream ..

theorem encrypt_ne_none (short : Countable plaintext) : encrypt key nonce aad plaintext ≠ none := by
  simp [encrypt, short]

end Laws

/-- The known answer the sessions' tests begin with. -/
example :
    let key : Exactly 32 := ⟨(List.range 32).map fun i => UInt8.ofNat (0x80 + i), by decide⟩
    let nonce : Exactly 12 := ⟨[7, 0, 0, 0, 0x40, 0x41, 0x42, 0x43, 0x44, 0x45, 0x46, 0x47], by decide⟩
    let aad : Bytes := [0x50, 0x51, 0x52, 0x53, 0xc0, 0xc1, 0xc2, 0xc3, 0xc4, 0xc5, 0xc6, 0xc7]
    let text := "Ladies and Gentlemen of the class of '99: If I could offer you " ++
      "only one tip for the future, sunscreen would be it."
    let sealed := encrypt key nonce aad (text.toList.map fun c => UInt8.ofNat c.toNat)
    sealed.map (fun out => (out.1.take 16, out.2.val)) = some
      ([0xd3, 0x1a, 0x8d, 0x34, 0x64, 0x8e, 0x60, 0xdb, 0x7b, 0x86, 0xaf, 0xbc, 0x53, 0xef, 0x7e, 0xc2],
        [0x1a, 0xe1, 0x0b, 0x59, 0x4f, 0x09, 0xe2, 0x6a, 0x7e, 0x90, 0x2e, 0xcb, 0xd0, 0x60, 0x06, 0x91]) := by
  decide +kernel

end Jbuu.Library.ChaCha20Poly1305
