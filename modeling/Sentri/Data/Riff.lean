import Mathlib.Data.List.Basic
import Mathlib.Data.List.TakeDrop
import Mathlib.Tactic.NormNum
import Mathlib.Tactic.Ring

/-!
# Chunked files

Numbers as bytes, the least significant first; chunks with an identifier and
their size in front; forms, which are chunks of chunks; and sound as a form.
Everything that is encoded here is read back by a decoder that checks each
identifier and each size it meets.
-/

namespace Sentri.Data

/-! ## Numbers as bytes -/

/-- The lower bytes of a number, the least significant first. -/
def littleEndian : Nat → Nat → List UInt8
  | 0, _ => []
  | width + 1, value => UInt8.ofNat value :: littleEndian width (value / 256)

/-- The number that bytes stand for. -/
def ofLittleEndian : List UInt8 → Nat
  | [] => 0
  | byte :: bytes => byte.toNat + 256 * ofLittleEndian bytes

@[simp]
theorem length_littleEndian (width value : Nat) : (littleEndian width value).length = width := by
  induction width generalizing value with
  | zero => rfl
  | succ width ih => simp [littleEndian, ih]

theorem ofLittleEndian_littleEndian (width value : Nat) :
    ofLittleEndian (littleEndian width value) = value % 256 ^ width := by
  induction width generalizing value with
  | zero => simp [littleEndian, ofLittleEndian, Nat.mod_one]
  | succ width ih =>
      have byte : (UInt8.ofNat value).toNat = value % 256 := by simp
      rw [littleEndian, ofLittleEndian, ih, byte, Nat.pow_succ', Nat.mod_mul]

/-- A number that fits is read back. -/
theorem ofLittleEndian_littleEndian_of_lt {width value : Nat} (fits : value < 256 ^ width) :
    ofLittleEndian (littleEndian width value) = value := by
  rw [ofLittleEndian_littleEndian, Nat.mod_eq_of_lt fits]

/-- The first bytes, when there are as many. -/
def takeBytes (count : Nat) (bytes : List UInt8) : Option (List UInt8 × List UInt8) :=
  if count ≤ bytes.length then some (bytes.take count, bytes.drop count) else none

theorem takeBytes_append {count : Nat} {bytes : List UInt8} (rest : List UInt8)
    (length_eq : bytes.length = count) :
    takeBytes count (bytes ++ rest) = some (bytes, rest) := by
  subst length_eq
  simp [takeBytes]

/-- A number of a width in front of the other bytes. -/
def takeNumber (width : Nat) (bytes : List UInt8) : Option (Nat × List UInt8) :=
  (takeBytes width bytes).map fun (front, rest) => (ofLittleEndian front, rest)

theorem takeNumber_littleEndian (width value : Nat) (rest : List UInt8)
    (fits : value < 256 ^ width) :
    takeNumber width (littleEndian width value ++ rest) = some (value, rest) := by
  have split := takeBytes_append rest (length_littleEndian width value)
  simp only [takeNumber, split, Option.map_some, ofLittleEndian_littleEndian_of_lt fits]

/-! ## Chunks -/

/-- The code of four characters that names what a chunk is. -/
structure Ident where
  bytes : List UInt8
  length_eq : bytes.length = 4
  deriving DecidableEq

/-- An identifier in front of the other bytes. -/
def takeIdent (bytes : List UInt8) : Option (Ident × List UInt8) :=
  if named : (bytes.take 4).length = 4 then some (⟨bytes.take 4, named⟩, bytes.drop 4) else none

theorem takeIdent_append (ident : Ident) (rest : List UInt8) :
    takeIdent (ident.bytes ++ rest) = some (ident, rest) := by
  rcases ident with ⟨bytes, length_eq⟩
  have front : (bytes ++ rest).take 4 = bytes := by simp [length_eq]
  have back : (bytes ++ rest).drop 4 = rest := by simp [length_eq]
  simp only [takeIdent, front, back, length_eq, dite_true]

/-- A chunk is as long as its size field can say. -/
structure Chunk where
  ident : Ident
  body : List UInt8
  length_lt : body.length < 2 ^ 32
  deriving DecidableEq

namespace Chunk

/-- The byte that follows a body of an odd length. -/
def padding (length : Nat) : List UInt8 :=
  if length % 2 = 1 then [0] else []

def encode (chunk : Chunk) : List UInt8 :=
  chunk.ident.bytes ++ (littleEndian 4 chunk.body.length ++
    (chunk.body ++ padding chunk.body.length))

/-- Read a chunk and leave what follows it. -/
def decode (bytes : List UInt8) : Option (Chunk × List UInt8) := do
  let (ident, rest) ← takeIdent bytes
  let (size, rest) ← takeNumber 4 rest
  let (body, rest) ← takeBytes size rest
  let (_, rest) ← takeBytes (padding size).length rest
  if fits : body.length < 2 ^ 32 then some (⟨ident, body, fits⟩, rest) else none

theorem decode_encode (chunk : Chunk) (rest : List UInt8) :
    decode (chunk.encode ++ rest) = some (chunk, rest) := by
  rcases chunk with ⟨ident, body, fits⟩
  have size : takeNumber 4 (littleEndian 4 body.length ++ (body ++ (padding body.length ++ rest))) =
      some (body.length, body ++ (padding body.length ++ rest)) :=
    takeNumber_littleEndian 4 body.length _ fits
  simp only [decode, encode, List.append_assoc, takeIdent_append, Option.bind_eq_bind,
    Option.bind_some, size, takeBytes_append _ rfl, dif_pos fits]

theorem length_encode (chunk : Chunk) :
    chunk.encode.length = 8 + chunk.body.length + (padding chunk.body.length).length := by
  simp only [encode, List.length_append, chunk.ident.length_eq, length_littleEndian]
  ring

theorem length_encode_pos (chunk : Chunk) : 0 < chunk.encode.length := by
  rw [length_encode]
  omega

/-- Read chunks up to the end.  Each has at least one byte, so that there are
no more chunks than bytes. -/
def decodeAll : Nat → List UInt8 → Option (List Chunk)
  | _, [] => some []
  | 0, _ :: _ => none
  | bound + 1, bytes =>
      (decode bytes).bind fun (chunk, rest) => (decodeAll bound rest).map (chunk :: ·)

theorem decodeAll_flatMap_encode (chunks : List Chunk) {bound : Nat}
    (enough : (chunks.flatMap encode).length ≤ bound) :
    decodeAll bound (chunks.flatMap encode) = some chunks := by
  induction chunks generalizing bound with
  | nil => cases bound <;> rfl
  | cons chunk chunks ih =>
      have positive := length_encode_pos chunk
      rw [List.flatMap_cons, List.length_append] at enough
      cases bound with
      | zero => omega
      | succ bound =>
          have read := decode_encode chunk (chunks.flatMap encode)
          have others := @ih bound (by omega)
          rw [List.flatMap_cons]
          cases split : chunk.encode ++ chunks.flatMap encode with
          | nil =>
              rw [← List.length_eq_zero_iff, List.length_append] at split
              omega
          | cons byte bytes =>
              simp only [decodeAll, ← split, read, Option.bind_some, others, Option.map_some]

end Chunk

/-! ## Forms -/

/-- The identifier of a form. -/
def riff : Ident := ⟨[0x52, 0x49, 0x46, 0x46], rfl⟩

/-- A form: chunks in a chunk, behind an identifier that says what they are
about. -/
structure Form where
  kind : Ident
  chunks : List Chunk
  length_lt : 4 + (chunks.flatMap Chunk.encode).length < 2 ^ 32
  deriving DecidableEq

namespace Form

/-- The bytes of a form behind its size. -/
def body (form : Form) : List UInt8 :=
  form.kind.bytes ++ form.chunks.flatMap Chunk.encode

theorem length_body (form : Form) :
    form.body.length = 4 + (form.chunks.flatMap Chunk.encode).length := by
  rw [body, List.length_append, form.kind.length_eq]

def chunk (form : Form) : Chunk :=
  ⟨riff, form.body, by rw [length_body]; exact form.length_lt⟩

def encode (form : Form) : List UInt8 :=
  form.chunk.encode

/-- Read a file that is one form and nothing else. -/
def decode (bytes : List UInt8) : Option Form := do
  let (outer, rest) ← Chunk.decode bytes
  let (kind, inner) ← takeIdent outer.body
  let chunks ← Chunk.decodeAll inner.length inner
  if fits : 4 + (chunks.flatMap Chunk.encode).length < 2 ^ 32 then
    if outer.ident = riff ∧ rest = [] then some ⟨kind, chunks, fits⟩ else none
  else
    none

theorem decode_encode (form : Form) : decode form.encode = some form := by
  rcases form with ⟨kind, chunks, fits⟩
  have outer := Chunk.decode_encode (chunk ⟨kind, chunks, fits⟩) []
  rw [List.append_nil] at outer
  have inner := takeIdent_append kind (chunks.flatMap Chunk.encode)
  have read := Chunk.decodeAll_flatMap_encode chunks le_rfl
  simp only [decode, encode, outer, Option.bind_eq_bind, Option.bind_some]
  simp only [chunk, body, inner, read, Option.bind_some, dif_pos fits, and_self, if_true]

end Form

/-! ## Sound -/

/-- The kind of a form of sound, and the identifiers of its chunks. -/
def waveKind : Ident := ⟨[0x57, 0x41, 0x56, 0x45], rfl⟩

def waveFormat : Ident := ⟨[0x66, 0x6d, 0x74, 0x20], rfl⟩

def waveData : Ident := ⟨[0x64, 0x61, 0x74, 0x61], rfl⟩

/-- Sound in samples of sixteen bits that are not compressed.  It is small
enough for the fields of a form. -/
structure Wave where
  channels : Nat
  sampleRate : Nat
  samples : List Int16
  channels_lt : channels * 2 < 2 ^ 16
  sampleRate_lt : sampleRate < 2 ^ 32
  byteRate_lt : sampleRate * channels * 2 < 2 ^ 32
  samples_lt : 36 + 2 * samples.length < 2 ^ 32
  deriving DecidableEq

namespace Wave

def encodeSample (sample : Int16) : List UInt8 :=
  littleEndian 2 sample.toUInt16.toNat

def decodeSamples : List UInt8 → Option (List Int16)
  | [] => some []
  | [_] => none
  | low :: high :: rest =>
      (decodeSamples rest).map ((UInt16.ofNat (ofLittleEndian [low, high])).toInt16 :: ·)

theorem decodeSamples_flatMap_encodeSample (samples : List Int16) :
    decodeSamples (samples.flatMap encodeSample) = some samples := by
  induction samples with
  | nil => rfl
  | cons sample samples ih =>
      have value : ofLittleEndian (littleEndian 2 sample.toUInt16.toNat) = sample.toUInt16.toNat :=
        ofLittleEndian_littleEndian_of_lt sample.toUInt16.toNat_lt
      have same : (UInt16.ofNat (ofLittleEndian (littleEndian 2 sample.toUInt16.toNat))).toInt16 =
          sample := by
        rw [value, UInt16.ofNat_toNat, Int16.toInt16_toUInt16]
      rw [List.flatMap_cons]
      change (decodeSamples (samples.flatMap encodeSample)).map (_ :: ·) = _
      rw [ih, Option.map_some]
      exact congrArg (fun first => some (first :: samples)) same

theorem length_flatMap_encodeSample (samples : List Int16) :
    (samples.flatMap encodeSample).length = 2 * samples.length := by
  induction samples with
  | nil => rfl
  | cons sample samples ih =>
      rw [List.flatMap_cons, List.length_append, ih, encodeSample, length_littleEndian,
        List.length_cons]
      ring

/-- What the chunk of the format holds: the tag of samples that are not
compressed, how many channels and samples there are, and how much room they
take. -/
def format (channels sampleRate : Nat) : List UInt8 :=
  littleEndian 2 1 ++ (littleEndian 2 channels ++ (littleEndian 4 sampleRate ++
    (littleEndian 4 (sampleRate * channels * 2) ++ (littleEndian 2 (channels * 2) ++
      littleEndian 2 16))))

theorem length_format (channels sampleRate : Nat) : (format channels sampleRate).length = 16 := by
  simp [format]

theorem length_data_lt (wave : Wave) : (wave.samples.flatMap encodeSample).length < 2 ^ 32 := by
  have bound := wave.samples_lt
  rw [length_flatMap_encodeSample]
  omega

def formatChunk (channels sampleRate : Nat) : Chunk :=
  ⟨waveFormat, format channels sampleRate, by rw [length_format]; norm_num⟩

def dataChunk (wave : Wave) : Chunk :=
  ⟨waveData, wave.samples.flatMap encodeSample, wave.length_data_lt⟩

theorem length_chunks (wave : Wave) :
    ([formatChunk wave.channels wave.sampleRate, wave.dataChunk].flatMap Chunk.encode).length =
      32 + 2 * wave.samples.length := by
  have first := Chunk.length_encode (formatChunk wave.channels wave.sampleRate)
  have second := Chunk.length_encode wave.dataChunk
  simp only [formatChunk, length_format, dataChunk, length_flatMap_encodeSample] at first second
  simp only [List.flatMap_cons, List.flatMap_nil, List.append_nil, List.length_append,
    formatChunk, dataChunk, first, second]
  simp [Chunk.padding]
  ring

def form (wave : Wave) : Form where
  kind := waveKind
  chunks := [formatChunk wave.channels wave.sampleRate, wave.dataChunk]
  length_lt := by
    have bound := wave.samples_lt
    rw [length_chunks]
    omega

def encode (wave : Wave) : List UInt8 :=
  wave.form.encode

/-- Read the chunk of the format: the channels and the sample rate, when all
other fields agree with them. -/
def decodeFormat (bytes : List UInt8) : Option (Nat × Nat) := do
  let (tag, rest) ← takeNumber 2 bytes
  let (channels, rest) ← takeNumber 2 rest
  let (sampleRate, rest) ← takeNumber 4 rest
  let (byteRate, rest) ← takeNumber 4 rest
  let (align, rest) ← takeNumber 2 rest
  let (bits, rest) ← takeNumber 2 rest
  if tag = 1 ∧ byteRate = sampleRate * channels * 2 ∧ align = channels * 2 ∧ bits = 16 ∧
      rest = [] then
    some (channels, sampleRate)
  else
    none

/-- Read a file of sound. -/
def decode (bytes : List UInt8) : Option Wave := do
  let form ← Form.decode bytes
  match form.chunks with
  | [first, second] =>
      let (channels, sampleRate) ← decodeFormat first.body
      let samples ← decodeSamples second.body
      if form.kind = waveKind ∧ first.ident = waveFormat ∧ second.ident = waveData then
        if fits : channels * 2 < 2 ^ 16 ∧ sampleRate < 2 ^ 32 ∧
            sampleRate * channels * 2 < 2 ^ 32 ∧ 36 + 2 * samples.length < 2 ^ 32 then
          some ⟨channels, sampleRate, samples, fits.1, fits.2.1, fits.2.2.1, fits.2.2.2⟩
        else
          none
      else
        none
  | _ => none

theorem decodeFormat_format (wave : Wave) :
    decodeFormat (format wave.channels wave.sampleRate) =
      some (wave.channels, wave.sampleRate) := by
  have channels : wave.channels < 256 ^ 2 := by
    have bound := wave.channels_lt
    omega
  have last := takeNumber_littleEndian 2 16 [] (by norm_num)
  rw [List.append_nil] at last
  simp only [decodeFormat, format, Option.bind_eq_bind, Option.bind_some,
    takeNumber_littleEndian 2 1 _ (by norm_num), takeNumber_littleEndian 2 _ _ channels,
    takeNumber_littleEndian 4 _ _ wave.sampleRate_lt,
    takeNumber_littleEndian 4 _ _ wave.byteRate_lt,
    takeNumber_littleEndian 2 _ _ wave.channels_lt, last, and_self, if_true]

theorem decode_encode (wave : Wave) : decode wave.encode = some wave := by
  have chunks : wave.form.chunks =
      [formatChunk wave.channels wave.sampleRate, wave.dataChunk] := rfl
  simp only [decode, encode, Form.decode_encode, Option.bind_eq_bind, Option.bind_some, chunks]
  simp only [formatChunk, dataChunk, decodeFormat_format, decodeSamples_flatMap_encodeSample,
    Option.bind_some, form, and_self, if_true, wave.channels_lt, wave.sampleRate_lt,
    wave.byteRate_lt, wave.samples_lt, dite_true]

end Wave

end Sentri.Data
