/-
# Terminal.Frame — the frames inside a terminal session

`TerminalFrame` of `otp-terminal`: what a DATA record of a terminal session carries. A
type byte, then fields of fixed width, or a length and that many bytes. `encode` asserts
that input and output come in chunks of at most `DATA_CHUNK_MAX`, which is how
`chunk_input` cuts them. Every frame that fits has one encoding, and what `decode` accepts is
nothing else (`frames_are_canonical`).
-/
import Jbuu.Codec.Wire
import Jbuu.Terminal.Lease

namespace Jbuu.Terminal

set_option autoImplicit false

open Jbuu.Library.BigEndian (Bytes)

/-- `FRAME_OVERHEAD`. -/
def frameOverhead : Nat := 3

/-- `DATA_CHUNK_MAX`. -/
def dataChunkMax : Nat := Codec.maxAppPlaintext - frameOverhead

inductive DenyReason where
  | busy
  | gone
  | fenced
  deriving DecidableEq, Repr

namespace DenyReason

/-- `WIRE`: the reasons that are looked up. -/
def all : List DenyReason := [.busy, .gone, .fenced]

def wire : DenyReason → UInt8
  | .busy => 1
  | .gone => 2
  | .fenced => 3

end DenyReason

inductive TerminalFrame where
  | open (rows cols : UInt16)
  | attach (handle : UInt64) (rows cols : UInt16)
  | input (data : Bytes)
  | resize (rows cols : UInt16)
  | ping
  | granted (handle token : UInt64)
  | denied (reason : DenyReason)
  | output (data : Bytes)
  | exit (code : Int32)
  deriving DecidableEq

namespace TerminalFrame

/-- A type byte, a length and the data; `none` is the failed assertion. -/
def encodeChunk (type : UInt8) (data : Bytes) : Option Bytes :=
  if data.length ≤ dataChunkMax then
    some (type :: (u16Bytes (UInt16.ofNat data.length) ++ data))
  else none

def encode : TerminalFrame → Option Bytes
  | .open rows cols => some (0x01 :: (u16Bytes rows ++ u16Bytes cols))
  | .attach handle rows cols => some (0x02 :: (u64Bytes handle ++ (u16Bytes rows ++ u16Bytes cols)))
  | .input data => encodeChunk 0x03 data
  | .resize rows cols => some (0x04 :: (u16Bytes rows ++ u16Bytes cols))
  | .ping => some [0x05]
  | .granted handle token => some (0x11 :: (u64Bytes handle ++ u64Bytes token))
  | .denied reason => some [0x12, reason.wire]
  | .output data => encodeChunk 0x13 data
  | .exit code => some (0x14 :: u32Bytes code.toUInt32)

def decodeChunk (rest : Bytes) : Except TerminalError Bytes :=
  if rest.length < 2 then .error .protocol
  else
    let len := (u16Of (slice rest 0 2)).toNat
    let body := rest.drop 2
    if body.length ≠ len ∨ dataChunkMax < len then .error .protocol else .ok body

def decode : Bytes → Except TerminalError TerminalFrame
  | [] => .error .protocol
  | t :: rest =>
      if t = 0x01 then
        if rest.length ≠ 4 then .error .protocol
        else .ok (.open (u16Of (slice rest 0 2)) (u16Of (slice rest 2 4)))
      else if t = 0x02 then
        if rest.length ≠ 12 then .error .protocol
        else .ok (.attach (u64Of (slice rest 0 8)) (u16Of (slice rest 8 10)) (u16Of (slice rest 10 12)))
      else if t = 0x03 then (decodeChunk rest).map .input
      else if t = 0x13 then (decodeChunk rest).map .output
      else if t = 0x04 then
        if rest.length ≠ 4 then .error .protocol
        else .ok (.resize (u16Of (slice rest 0 2)) (u16Of (slice rest 2 4)))
      else if t = 0x05 then if rest ≠ [] then .error .protocol else .ok .ping
      else if t = 0x11 then
        if rest.length ≠ 16 then .error .protocol
        else .ok (.granted (u64Of (slice rest 0 8)) (u64Of (slice rest 8 16)))
      else if t = 0x12 then
        match rest with
        | [] => .error .protocol
        | r :: tail =>
            if tail ≠ [] then .error .protocol
            else
              match DenyReason.all.find? fun c => c.wire = r with
              | none => .error .protocol
              | some reason => .ok (.denied reason)
      else if t = 0x14 then
        if rest.length ≠ 4 then .error .protocol
        else .ok (.exit (u32Of rest).toInt32)
      else .error .protocol

/-! ## The round trip -/

theorem slice_u16Bytes (x : UInt16) (rest : Bytes) : slice (u16Bytes x ++ rest) 0 2 = u16Bytes x := by
  rw [slice, List.drop_zero, Library.BigEndian.take_append (by simp)]

theorem decodeChunk_encodeChunk {type : UInt8} {data bytes : Bytes} (encoded : encodeChunk type data = some bytes) :
    ∃ rest, bytes = type :: rest ∧ decodeChunk rest = .ok data := by
  unfold encodeChunk at encoded
  split at encoded
  · rename_i fits
    obtain rfl := Option.some.inj encoded
    refine ⟨_, rfl, ?_⟩
    have small : dataChunkMax < 2 ^ 16 := by decide
    have len : (UInt16.ofNat data.length).toNat = data.length := by
      rw [UInt16.toNat_ofNat']
      exact Nat.mod_eq_of_lt (by omega)
    have two : ¬(u16Bytes (UInt16.ofNat data.length) ++ data).length < 2 := by
      rw [List.length_append, length_u16Bytes]
      omega
    have body : (u16Bytes (UInt16.ofNat data.length) ++ data).drop 2 = data := Library.BigEndian.drop_append (by simp)
    unfold decodeChunk
    dsimp only
    rw [if_neg two, slice_u16Bytes, u16Of_u16Bytes, len, body, if_neg (by omega)]
  · nomatch encoded

/-- **A frame that is encoded is read back as it was.** -/
theorem decode_encode {f : TerminalFrame} {bytes : Bytes} (encoded : f.encode = some bytes) :
    decode bytes = .ok f := by
  have two (x y : UInt16) : slice (u16Bytes x ++ u16Bytes y) 2 4 = u16Bytes y := by
    simp [slice, List.take_of_length_le]
  have three (h : UInt64) (x y : UInt16) :
      slice (u64Bytes h ++ (u16Bytes x ++ u16Bytes y)) 0 8 = u64Bytes h ∧
        slice (u64Bytes h ++ (u16Bytes x ++ u16Bytes y)) 8 10 = u16Bytes x ∧
        slice (u64Bytes h ++ (u16Bytes x ++ u16Bytes y)) 10 12 = u16Bytes y := by
    simp [slice, List.drop_append, List.drop_of_length_le, List.take_of_length_le]
  have wide (x y : UInt64) :
      slice (u64Bytes x ++ u64Bytes y) 0 8 = u64Bytes x ∧ slice (u64Bytes x ++ u64Bytes y) 8 16 = u64Bytes y := by
    simp [slice, List.drop_append, List.take_of_length_le]
  cases f with
  | «open» rows cols =>
      obtain rfl := Option.some.inj encoded
      show (if (u16Bytes rows ++ u16Bytes cols).length ≠ 4 then .error .protocol else Except.ok (TerminalFrame.open _ _)) = _
      rw [if_neg (by simp), slice_u16Bytes, two, u16Of_u16Bytes, u16Of_u16Bytes]
  | attach handle rows cols =>
      obtain rfl := Option.some.inj encoded
      obtain ⟨first, second, third⟩ := three handle rows cols
      show (if (u64Bytes handle ++ (u16Bytes rows ++ u16Bytes cols)).length ≠ 12 then .error .protocol
        else Except.ok (attach _ _ _)) = _
      rw [if_neg (by simp), first, second, third, u64Of_u64Bytes, u16Of_u16Bytes, u16Of_u16Bytes]
  | input data =>
      obtain ⟨rest, rfl, same⟩ := decodeChunk_encodeChunk encoded
      show (decodeChunk rest).map _ = _
      rw [same]
      rfl
  | output data =>
      obtain ⟨rest, rfl, same⟩ := decodeChunk_encodeChunk encoded
      show (decodeChunk rest).map _ = _
      rw [same]
      rfl
  | resize rows cols =>
      obtain rfl := Option.some.inj encoded
      show (if (u16Bytes rows ++ u16Bytes cols).length ≠ 4 then .error .protocol else Except.ok (resize _ _)) = _
      rw [if_neg (by simp), slice_u16Bytes, two, u16Of_u16Bytes, u16Of_u16Bytes]
  | ping =>
      obtain rfl := Option.some.inj encoded
      rfl
  | granted handle token =>
      obtain rfl := Option.some.inj encoded
      obtain ⟨first, second⟩ := wide handle token
      show (if (u64Bytes handle ++ u64Bytes token).length ≠ 16 then .error .protocol else Except.ok (granted _ _)) = _
      rw [if_neg (by simp), first, second, u64Of_u64Bytes, u64Of_u64Bytes]
  | denied reason =>
      obtain rfl := Option.some.inj encoded
      cases reason <;> rfl
  | exit code =>
      obtain rfl := Option.some.inj encoded
      show (if (u32Bytes code.toUInt32).length ≠ 4 then .error .protocol else Except.ok (exit _)) = _
      rw [if_neg (by simp), u32Of_u32Bytes, Int32.toInt32_toUInt32]

/-- The two halves of a field of four bytes. -/
theorem u16Bytes_slices {rest : Bytes} (len : rest.length = 4) :
    u16Bytes (u16Of (slice rest 0 2)) ++ u16Bytes (u16Of (slice rest 2 4)) = rest := by
  rw [u16Bytes_u16Of (length_slice (by omega)), u16Bytes_u16Of (length_slice (by omega)),
    slice_append_slice (by omega) (by omega), slice, ← len]
  exact List.take_length

theorem encodeChunk_decodeChunk {rest data : Bytes} (decoded : decodeChunk rest = .ok data) (type : UInt8) :
    encodeChunk type data = some (type :: rest) := by
  unfold decodeChunk at decoded
  split at decoded
  · nomatch decoded
  · rename_i long_
    dsimp only at decoded
    split at decoded
    · nomatch decoded
    · rename_i fits
      obtain ⟨exact_, small⟩ := not_or.mp fits
      obtain rfl := Except.ok.inj decoded
      have len : (rest.drop 2).length = (u16Of (slice rest 0 2)).toNat := not_not.mp exact_
      have whole : u16Bytes (UInt16.ofNat (rest.drop 2).length) ++ rest.drop 2 = rest := by
        rw [len, UInt16.ofNat_toNat, u16Bytes_u16Of (length_slice (by omega))]
        exact List.take_append_drop 2 rest
      unfold encodeChunk
      rw [if_pos (by omega), whole]

theorem of_map_ok {α β ε : Type} {f : α → β} {x : Except ε α} {b : β} (mapped : x.map f = .ok b) :
    ∃ a, x = .ok a ∧ f a = b := by
  cases x with
  | error e => nomatch mapped
  | ok a => exact ⟨a, rfl, Except.ok.inj mapped⟩

/-- **Bytes that are read as a frame are its encoding.** -/
theorem encode_decode {bytes : Bytes} {f : TerminalFrame} (decoded : decode bytes = .ok f) :
    f.encode = some bytes := by
  cases bytes with
  | nil => cases decoded
  | cons t rest =>
      unfold decode at decoded
      dsimp only at decoded
      by_cases opens : t = 0x01
      · rw [if_pos opens] at decoded
        split at decoded
        · cases decoded
        · rename_i len
          obtain rfl := Except.ok.inj decoded
          subst opens
          show some (_ :: (u16Bytes _ ++ u16Bytes _)) = _
          rw [u16Bytes_slices (not_not.mp len)]
      rw [if_neg opens] at decoded
      by_cases attaches : t = 0x02
      · rw [if_pos attaches] at decoded
        split at decoded
        · cases decoded
        · rename_i len
          obtain rfl := Except.ok.inj decoded
          have len := not_not.mp len
          subst attaches
          show some (_ :: (u64Bytes _ ++ (u16Bytes _ ++ u16Bytes _))) = _
          rw [u64Bytes_u64Of (length_slice (by omega)), u16Bytes_u16Of (length_slice (by omega)),
            u16Bytes_u16Of (length_slice (by omega)), slice_append_slice (by omega) (by omega),
            slice_append_slice (by omega) (by omega), slice, ← len, Nat.sub_zero, List.drop_zero, List.take_length]
      rw [if_neg attaches] at decoded
      by_cases inputs : t = 0x03
      · rw [if_pos inputs] at decoded
        obtain ⟨data, chunk, rfl⟩ := of_map_ok decoded
        subst inputs
        exact encodeChunk_decodeChunk chunk 0x03
      rw [if_neg inputs] at decoded
      by_cases outputs : t = 0x13
      · rw [if_pos outputs] at decoded
        obtain ⟨data, chunk, rfl⟩ := of_map_ok decoded
        subst outputs
        exact encodeChunk_decodeChunk chunk 0x13
      rw [if_neg outputs] at decoded
      by_cases resizes : t = 0x04
      · rw [if_pos resizes] at decoded
        split at decoded
        · cases decoded
        · rename_i len
          obtain rfl := Except.ok.inj decoded
          subst resizes
          show some (_ :: (u16Bytes _ ++ u16Bytes _)) = _
          rw [u16Bytes_slices (not_not.mp len)]
      rw [if_neg resizes] at decoded
      by_cases pings : t = 0x05
      · rw [if_pos pings] at decoded
        split at decoded
        · cases decoded
        · rename_i empty
          obtain rfl := Except.ok.inj decoded
          obtain rfl := not_not.mp empty
          rw [pings]
          rfl
      rw [if_neg pings] at decoded
      by_cases grants : t = 0x11
      · rw [if_pos grants] at decoded
        split at decoded
        · cases decoded
        · rename_i len
          obtain rfl := Except.ok.inj decoded
          have len := not_not.mp len
          subst grants
          show some (_ :: (u64Bytes _ ++ u64Bytes _)) = _
          rw [u64Bytes_u64Of (length_slice (by omega)), u64Bytes_u64Of (length_slice (by omega)),
            slice_append_slice (by omega) (by omega), slice, ← len, Nat.sub_zero, List.drop_zero, List.take_length]
      rw [if_neg grants] at decoded
      by_cases denies : t = 0x12
      · rw [if_pos denies] at decoded
        cases rest with
        | nil => cases decoded
        | cons r tail =>
            dsimp only at decoded
            split at decoded
            · cases decoded
            · rename_i empty
              cases found : DenyReason.all.find? fun c => c.wire = r with
              | none =>
                  rw [found] at decoded
                  cases decoded
              | some reason =>
                  rw [found] at decoded
                  obtain rfl := Except.ok.inj decoded
                  have wire : reason.wire = r := by simpa using List.find?_some found
                  show some [0x12, reason.wire] = _
                  rw [wire, denies, not_not.mp empty]
      rw [if_neg denies] at decoded
      by_cases exits : t = 0x14
      · rw [if_pos exits] at decoded
        split at decoded
        · cases decoded
        · rename_i len
          obtain rfl := Except.ok.inj decoded
          subst exits
          show some (_ :: u32Bytes (u32Of rest).toInt32.toUInt32) = _
          rw [UInt32.toUInt32_toInt32, u32Bytes_u32Of (not_not.mp len)]
      rw [if_neg exits] at decoded
      cases decoded

end TerminalFrame

/-! ## Chunks -/

/-- `slice::chunks`, for a positive size. -/
def chunks (size : Nat) (positive : 0 < size) (data : Bytes) : List Bytes :=
  if data = [] then [] else data.take size :: chunks size positive (data.drop size)
termination_by data.length
decreasing_by
  have := List.length_pos_iff.mpr ‹_›
  simp only [List.length_drop]
  omega

theorem chunks_nil (size : Nat) (positive : 0 < size) : chunks size positive [] = [] := by
  rw [chunks, if_pos rfl]

theorem chunks_cons {size : Nat} (positive : 0 < size) {data : Bytes} (some : data ≠ []) :
    chunks size positive data = data.take size :: chunks size positive (data.drop size) := by
  rw [chunks, if_neg some]

/-- The chunks are the data. -/
theorem flatten_chunks {size : Nat} (positive : 0 < size) (data : Bytes) :
    (chunks size positive data).flatten = data := by
  induction data using chunks.induct size positive with
  | case1 => rw [chunks_nil, List.flatten_nil]
  | case2 data some ih =>
      rw [chunks_cons positive some, List.flatten_cons, ih, List.take_append_drop]

/-- No chunk is empty or too large. -/
theorem length_of_mem_chunks {size : Nat} (positive : 0 < size) {data chunk : Bytes}
    (mem : chunk ∈ chunks size positive data) : 0 < chunk.length ∧ chunk.length ≤ size := by
  induction data using chunks.induct size positive with
  | case1 => simp [chunks_nil] at mem
  | case2 data some ih =>
      rw [chunks_cons positive some] at mem
      rcases List.mem_cons.mp mem with rfl | later
      · have := List.length_pos_iff.mpr some
        simp only [List.length_take]
        omega
      · exact ih later

/-- `chunk_input`. -/
def chunkInput (data : Bytes) : List Bytes := chunks dataChunkMax (by decide) data

/-! ## Frames and chunks -/

namespace TerminalFrame

/-- The data is within the limit. -/
def Fits : TerminalFrame → Prop
  | .input data => data.length ≤ dataChunkMax
  | .output data => data.length ≤ dataChunkMax
  | _ => True

theorem encodeChunk_of_le (type : UInt8) {data : Bytes} (fits : data.length ≤ dataChunkMax) :
    ∃ bytes, encodeChunk type data = some bytes ∧ bytes.length ≤ Codec.maxAppPlaintext := by
  refine ⟨_, if_pos fits, ?_⟩
  have max : dataChunkMax + 3 = Codec.maxAppPlaintext := rfl
  simp only [List.length_cons, List.length_append, length_u16Bytes]
  omega

/-- A frame that fits is encoded, within the limit of a record's plaintext. -/
theorem encode_of_fits {f : TerminalFrame} (fits : f.Fits) :
    ∃ bytes, f.encode = some bytes ∧ bytes.length ≤ Codec.maxAppPlaintext := by
  cases f with
  | input data => exact encodeChunk_of_le 0x03 fits
  | output data => exact encodeChunk_of_le 0x13 fits
  | _ =>
      refine ⟨_, rfl, ?_⟩
      simp [Codec.maxAppPlaintext]

end TerminalFrame

/-- **The frame codec is a bijection that fits the channel.** A frame that fits is encoded
within the limit and read back as it was; what is read back was the encoding of what it was
read as; and `chunk_input` cuts every input into chunks that fit and are the input. -/
theorem frames_are_canonical :
    (∀ f : TerminalFrame, f.Fits →
      ∃ bytes, f.encode = some bytes ∧ TerminalFrame.decode bytes = .ok f ∧
        bytes.length ≤ Codec.maxAppPlaintext) ∧
    (∀ bytes f, TerminalFrame.decode bytes = .ok f → f.encode = some bytes) ∧
    ∀ data : Bytes, (chunkInput data).flatten = data ∧
      ∀ chunk ∈ chunkInput data, chunk ≠ [] ∧ chunk.length ≤ dataChunkMax ∧
        (TerminalFrame.input chunk).encode.isSome = true ∧ (TerminalFrame.output chunk).encode.isSome = true := by
  refine ⟨?_, fun bytes f => TerminalFrame.encode_decode, fun data => ⟨flatten_chunks _ data, ?_⟩⟩
  · intro f fits
    obtain ⟨bytes, encoded, small⟩ := TerminalFrame.encode_of_fits fits
    exact ⟨bytes, encoded, TerminalFrame.decode_encode encoded, small⟩
  · intro chunk mem
    obtain ⟨some_, fits⟩ := length_of_mem_chunks _ mem
    obtain ⟨_, input, -⟩ := TerminalFrame.encode_of_fits (f := .input chunk) fits
    obtain ⟨_, output, -⟩ := TerminalFrame.encode_of_fits (f := .output chunk) fits
    exact ⟨List.ne_nil_of_length_pos some_, fits, by rw [input]; rfl, by rw [output]; rfl⟩

end Jbuu.Terminal
