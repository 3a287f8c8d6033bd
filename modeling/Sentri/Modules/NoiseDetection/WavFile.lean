import Sentri.Data.Riff
import Sentri.Modules.NoiseDetection.Module

/-!
# Audio files

A noise is written into a sound file of which the header comes first, with
sizes of zero.  The sizes are patched into it when the writer is closed.  What
a file that was closed without an error holds is exactly the samples that were
written, as any reader of such files finds them.
-/

namespace Sentri.Modules.NoiseDetection.WavFile

open Sentri.Data Sentri.LibModule Sentri.Text

/-! ## Files -/

/-- A file that is opened for writing: the bytes it has taken so far, and where
the next one goes. -/
structure File where
  bytes : List UInt8
  position : Nat
  deriving DecidableEq

/-- Store bytes at the position.  A gap in front of it is filled with zeros. -/
def File.put (file : File) (data : List UInt8) : File where
  bytes :=
    (file.bytes ++ List.replicate (file.position - file.bytes.length) 0).take file.position ++
      data ++ file.bytes.drop (file.position + data.length)
  position := file.position + data.length

/-- What the operating system and the buffers of the C library do. -/
structure Disk where
  /-- Does `fopen` open the file? -/
  opens : Bool
  /-- How many bytes `fwrite` takes. -/
  accepts : File → List UInt8 → Nat
  /-- Does `fseek` move to a position? -/
  seeks : File → Nat → Bool
  /-- What the file holds after `fclose`, at whose answer nobody looks. -/
  closed : File → List UInt8

namespace Disk

variable (disk : Disk)

def fwrite (file : File) (data : List UInt8) : Nat × File :=
  let taken := min (disk.accepts file data) data.length
  (taken, file.put (data.take taken))

/-- Write all bytes or give up. -/
def write (file : File) (data : List UInt8) : Except Int File :=
  let (numWritten, file) := disk.fwrite file data
  if numWritten ≠ data.length then .error (-1) else .ok file

def fseek (file : File) (position : Nat) : Except Int File :=
  if disk.seeks file position then .ok { file with position } else .error (-1)

/-- Nothing fails. -/
structure Reliable : Prop where
  opens : disk.opens = true
  accepts : ∀ file data, data.length ≤ disk.accepts file data
  seeks : ∀ file position, disk.seeks file position = true

end Disk

/-! ## The writer -/

/-- Write long word data to a little endian format byte array. -/
def writeLongLE (data : UInt32) : List UInt8 :=
  [data.toUInt8, (data >>> 8).toUInt8, (data >>> 16).toUInt8, (data >>> 24).toUInt8]

/-- Write short word data to a little endian format byte array. -/
def writeShortLE (data : UInt16) : List UInt8 :=
  [data.toUInt8, (data >>> 8).toUInt8]

/-- Write an identifier of four characters to a byte array. -/
def writeChunkType (cktyp : UInt32) : List UInt8 :=
  [(cktyp >>> 24).toUInt8, (cktyp >>> 16).toUInt8, (cktyp >>> 8).toUInt8, cktyp.toUInt8]

def riffId : UInt32 := 'R'.val <<< 24 ||| 'I'.val <<< 16 ||| 'F'.val <<< 8 ||| 'F'.val

def waveId : UInt32 := 'W'.val <<< 24 ||| 'A'.val <<< 16 ||| 'V'.val <<< 8 ||| 'E'.val

def fmtId : UInt32 := 'f'.val <<< 24 ||| 'm'.val <<< 16 ||| 't'.val <<< 8 ||| ' '.val

def dataId : UInt32 := 'd'.val <<< 24 ||| 'a'.val <<< 16 ||| 't'.val <<< 8 ||| 'a'.val

def waveFormatPcm : UInt16 := 1

def wavHeaderSize : Nat := 4 + 4 + 4 + 4 + 4 + 16 + 4 + 4

structure WavWriter where
  fid : File
  /-- Offset in the file for the size of the data. -/
  dataSizeOffset : Nat
  dataSize : Nat
  deriving DecidableEq

/-- The header up to the size of the data. -/
def wavHeader (frameRate samplesPerFrame : Nat) : List UInt8 :=
  writeChunkType riffId ++ writeLongLE 0 ++ writeChunkType waveId ++
    writeChunkType fmtId ++ writeLongLE 16 ++ writeShortLE waveFormatPcm ++
    writeShortLE (.ofNat samplesPerFrame) ++ writeLongLE (.ofNat frameRate) ++
    writeLongLE (.ofNat (frameRate * samplesPerFrame * 2)) ++
    writeShortLE (.ofNat (samplesPerFrame * 2)) ++ writeShortLE 16 ++ writeChunkType dataId

/-- Open the file and write its header.  Returns the number of bytes written,
or a negative error code. -/
def openWriter (disk : Disk) (frameRate samplesPerFrame : Nat) : Except Int (Int × WavWriter) :=
  if disk.opens then do
    let header := wavHeader frameRate samplesPerFrame
    let fid ← disk.write ⟨[], 0⟩ (header ++ writeLongLE 0)
    .ok (wavHeaderSize, ⟨fid, header.length, 0⟩)
  else
    .error (-1)

/-- The loop over the samples. -/
def writeEach (disk : Disk) (fid : File) : List Int16 → Except Int File
  | [] => .ok fid
  | sample :: samples => do
      let fid ← disk.write fid (writeShortLE sample.toUInt16)
      writeEach disk fid samples

/-- Write to the data chunk.  Returns the number of bytes written, or a
negative error code. -/
def writeShorts (disk : Disk) (writer : WavWriter) (samples : List Int16) :
    Except Int (Int × WavWriter) :=
  if samples.length ≤ 0 then
    .error (-1)
  else do
    let fid ← writeEach disk writer.fid samples
    let bytesWritten := samples.length * 2
    .ok (bytesWritten, { writer with fid, dataSize := writer.dataSize + bytesWritten })

/-- Update the sizes and close the file.  Returns the size of the data and what
the file then holds, or a negative error code. -/
def closeWriter (disk : Disk) (writer : WavWriter) : Except Int (Int × List UInt8) := do
  let fid ← disk.fseek writer.fid writer.dataSizeOffset
  let fid ← disk.write fid (writeLongLE (.ofNat writer.dataSize))
  let fid ← disk.fseek fid 4
  let riffSize := writer.dataSize + (wavHeaderSize - 8)
  let fid ← disk.write fid (writeLongLE (.ofNat riffSize))
  .ok (writer.dataSize, disk.closed fid)

/-- Write blocks of samples one after the other. -/
def writeBlocks (disk : Disk) : WavWriter → List (List Int16) → Except Int WavWriter
  | writer, [] => .ok writer
  | writer, block :: blocks => do
      let (_, writer) ← writeShorts disk writer block
      writeBlocks disk writer blocks

/-- Write a whole file from blocks of samples. -/
def writeFile (disk : Disk) (frameRate samplesPerFrame : Nat) (blocks : List (List Int16)) :
    Except Int (List UInt8) := do
  let (_, writer) ← openWriter disk frameRate samplesPerFrame
  let writer ← writeBlocks disk writer blocks
  let (_, content) ← closeWriter disk writer
  .ok content

/-! ## Recording a noise -/

/-- Samples that are written in one buffer. -/
def framesPerBuffer : Nat := 2048

def sampleRate : Nat := 44100

/-- The memory that holds the samples of one buffer. -/
structure SampleBlock where
  samples : List Int16
  length_eq : samples.length = framesPerBuffer

/-- A file as `generateAudioFile` leaves it, and the block of samples. -/
structure AudioFile where
  name : Str
  content : List UInt8
  sampleBlock : SampleBlock

/-- What the module says before it ends itself. -/
def fatal (text : String) : Message :=
  MessageHandler.log moduleName .fatal text.toList

/-- The loop that writes a block and then reads the next one into it: `read` is
what the block holds after each call of `Pa_ReadStream`, at whose answer nobody
looks. -/
def recordLoop (disk : Disk) (read : Nat → SampleBlock) :
    WavWriter → SampleBlock → List Nat → Except Message (WavWriter × SampleBlock)
  | writer, sampleBlock, [] => .ok (writer, sampleBlock)
  | writer, sampleBlock, i :: is => do
      let (_, writer) ← (writeShorts disk writer sampleBlock.samples).mapError fun _ =>
        fatal "Cannot write audio file"
      recordLoop disk read writer (read i) is

/-- Record about three seconds, from the block that was loud.  An error is the
last message of the module. -/
def generateAudioFile (disk : Disk) (time : Str) (read : Nat → SampleBlock)
    (sampleBlock : SampleBlock) : Except Message AudioFile := do
  let (_, writer) ← (openWriter disk sampleRate 1).mapError fun _ =>
    fatal "Cannot open Audio_WAV_OpenWriter"
  let (writer, sampleBlock) ← recordLoop disk read writer sampleBlock (List.range 65)
  let (_, content) ← (closeWriter disk writer).mapError fun _ =>
    fatal "Cannot close Audio_WAV_OpenWriter"
  .ok ⟨audioFile time, content, sampleBlock⟩

/-! ## What the bytes say -/

theorem writeShortLE_eq (data : UInt16) : writeShortLE data = littleEndian 2 data.toNat := by
  have second : (data >>> 8).toUInt8 = UInt8.ofNat (data.toNat / 256) := by
    apply UInt8.toNat.inj
    simp [Nat.shiftRight_eq_div_pow]
  have first : data.toUInt8 = UInt8.ofNat data.toNat := by
    apply UInt8.toNat.inj
    simp
  rw [writeShortLE, first, second]
  rfl

theorem writeLongLE_eq (data : UInt32) : writeLongLE data = littleEndian 4 data.toNat := by
  have first : data.toUInt8 = UInt8.ofNat data.toNat := by
    apply UInt8.toNat.inj
    simp
  have second : (data >>> 8).toUInt8 = UInt8.ofNat (data.toNat / 256) := by
    apply UInt8.toNat.inj
    simp [Nat.shiftRight_eq_div_pow]
  have third : (data >>> 16).toUInt8 = UInt8.ofNat (data.toNat / 256 / 256) := by
    apply UInt8.toNat.inj
    simp [Nat.shiftRight_eq_div_pow, Nat.div_div_eq_div_mul]
  have fourth : (data >>> 24).toUInt8 = UInt8.ofNat (data.toNat / 256 / 256 / 256) := by
    apply UInt8.toNat.inj
    simp [Nat.shiftRight_eq_div_pow, Nat.div_div_eq_div_mul]
  rw [writeLongLE, first, second, third, fourth]
  rfl

theorem writeShortLE_toUInt16 (sample : Int16) :
    writeShortLE sample.toUInt16 = Wave.encodeSample sample :=
  writeShortLE_eq sample.toUInt16

/-! ## What is stored -/

/-- Bytes are added at the end. -/
theorem File.put_end (bytes data : List UInt8) :
    File.put ⟨bytes, bytes.length⟩ data = ⟨bytes ++ data, (bytes ++ data).length⟩ := by
  simp [File.put]

/-- Bytes are patched. -/
theorem File.put_patch (front old data back : List UInt8)
    (same : old.length = data.length) :
    File.put ⟨front ++ (old ++ back), front.length⟩ data =
      ⟨front ++ (data ++ back), front.length + data.length⟩ := by
  have after : (front ++ (old ++ back)).drop (front.length + data.length) = back := by
    rw [← List.append_assoc, ← same, ← List.length_append, List.drop_left]
  simp [File.put, after]

variable {disk : Disk}

theorem Disk.write_eq (disk : Disk) (file : File) (data : List UInt8) :
    disk.write file data = if min (disk.accepts file data) data.length ≠ data.length then
      .error (-1)
    else
      .ok (file.put (data.take (min (disk.accepts file data) data.length))) :=
  rfl

theorem Disk.write_ok {file next : File} {data : List UInt8}
    (ok : disk.write file data = .ok next) : next = file.put data := by
  rw [Disk.write_eq] at ok
  by_cases all : min (disk.accepts file data) data.length = data.length
  · rw [if_neg (not_not.mpr all)] at ok
    cases ok
    rw [all, List.take_length]
  · rw [if_pos all] at ok
    cases ok

theorem Disk.fseek_ok {file next : File} {position : Nat}
    (ok : disk.fseek file position = .ok next) : next = { file with position } := by
  simp only [Disk.fseek] at ok
  split at ok
  · cases ok
    rfl
  · cases ok

/-- The first computation of two has succeeded. -/
theorem exists_of_bind_ok {ε α β : Type} {first : Except ε α} {second : α → Except ε β} {b : β}
    (ok : (first >>= second) = .ok b) : ∃ a, first = .ok a ∧ second a = .ok b := by
  cases first with
  | error e => cases ok
  | ok a => exact ⟨a, rfl, ok⟩

theorem writeEach_ok {bytes : List UInt8} {samples : List Int16} {next : File}
    (ok : writeEach disk ⟨bytes, bytes.length⟩ samples = .ok next) :
    next = ⟨bytes ++ samples.flatMap Wave.encodeSample,
      (bytes ++ samples.flatMap Wave.encodeSample).length⟩ := by
  induction samples generalizing bytes with
  | nil =>
      cases ok
      simp
  | cons sample samples ih =>
      obtain ⟨fid, written, rest⟩ := exists_of_bind_ok ok
      rw [Disk.write_ok written, File.put_end, writeShortLE_toUInt16] at rest
      rw [ih rest, List.flatMap_cons, List.append_assoc]

/-! ## Writing a file -/

/-- What an open file holds after samples have been written. -/
def unfinished (frameRate samplesPerFrame : Nat) (samples : List Int16) : List UInt8 :=
  wavHeader frameRate samplesPerFrame ++ (writeLongLE 0 ++ samples.flatMap Wave.encodeSample)

/-- A writer that has written samples: its file ends with them, and it knows
how much room they take. -/
structure Recorded (frameRate samplesPerFrame : Nat) (samples : List Int16)
    (writer : WavWriter) : Prop where
  fid : writer.fid = ⟨unfinished frameRate samplesPerFrame samples,
    (unfinished frameRate samplesPerFrame samples).length⟩
  dataSizeOffset : writer.dataSizeOffset = (wavHeader frameRate samplesPerFrame).length
  dataSize : writer.dataSize = 2 * samples.length

variable {frameRate samplesPerFrame : Nat} {samples : List Int16} {writer next : WavWriter}

theorem openWriter_recorded {written : Int}
    (ok : openWriter disk frameRate samplesPerFrame = .ok (written, writer)) :
    Recorded frameRate samplesPerFrame [] writer := by
  simp only [openWriter] at ok
  split at ok
  · obtain ⟨fid, stored, rest⟩ := exists_of_bind_ok ok
    have taken := Disk.write_ok stored
    cases rest
    constructor
    · rw [taken]
      simpa [unfinished] using
        File.put_end [] (wavHeader frameRate samplesPerFrame ++ writeLongLE 0)
    · rfl
    · rfl
  · cases ok

theorem writeShorts_recorded {written : Int} {block : List Int16}
    (recorded : Recorded frameRate samplesPerFrame samples writer)
    (ok : writeShorts disk writer block = .ok (written, next)) :
    Recorded frameRate samplesPerFrame (samples ++ block) next := by
  simp only [writeShorts] at ok
  split at ok
  · cases ok
  · obtain ⟨fid, stored, rest⟩ := exists_of_bind_ok ok
    rw [recorded.fid] at stored
    have taken := writeEach_ok stored
    cases rest
    constructor
    · rw [taken]
      simp [unfinished]
    · exact recorded.dataSizeOffset
    · change writer.dataSize + block.length * 2 = 2 * (samples ++ block).length
      rw [recorded.dataSize, List.length_append]
      ring

theorem writeBlocks_recorded {blocks : List (List Int16)}
    (recorded : Recorded frameRate samplesPerFrame samples writer)
    (ok : writeBlocks disk writer blocks = .ok next) :
    Recorded frameRate samplesPerFrame (samples ++ blocks.flatten) next := by
  induction blocks generalizing samples writer with
  | nil =>
      cases ok
      simpa using recorded
  | cons block blocks ih =>
      obtain ⟨⟨_, between⟩, first, rest⟩ := exists_of_bind_ok ok
      rw [List.flatten_cons, ← List.append_assoc]
      exact ih (writeShorts_recorded recorded first) rest

theorem writeChunkType_riffId : writeChunkType riffId = riff.bytes := by decide

theorem writeChunkType_waveId : writeChunkType waveId = waveKind.bytes := by decide

theorem writeChunkType_fmtId : writeChunkType fmtId = waveFormat.bytes := by decide

theorem writeChunkType_dataId : writeChunkType dataId = waveData.bytes := by decide

/-- The header between the two sizes, for a sound. -/
def betweenSizes (channels sampleRate : Nat) : List UInt8 :=
  waveKind.bytes ++ (waveFormat.bytes ++ (littleEndian 4 16 ++
    (Wave.format channels sampleRate ++ waveData.bytes)))

theorem wavHeader_eq (wave : Wave) :
    wavHeader wave.sampleRate wave.channels =
      riff.bytes ++ (littleEndian 4 0 ++ betweenSizes wave.channels wave.sampleRate) := by
  have channels : (UInt16.ofNat wave.channels).toNat = wave.channels := by
    have bound := wave.channels_lt
    exact UInt16.toNat_ofNat_of_lt (by simp [UInt16.size]; omega)
  have align : (UInt16.ofNat (wave.channels * 2)).toNat = wave.channels * 2 :=
    UInt16.toNat_ofNat_of_lt wave.channels_lt
  have rate : (UInt32.ofNat wave.sampleRate).toNat = wave.sampleRate :=
    UInt32.toNat_ofNat_of_lt wave.sampleRate_lt
  have byteRate : (UInt32.ofNat (wave.sampleRate * wave.channels * 2)).toNat =
      wave.sampleRate * wave.channels * 2 :=
    UInt32.toNat_ofNat_of_lt wave.byteRate_lt
  simp only [wavHeader, writeChunkType_riffId, writeChunkType_waveId, writeChunkType_fmtId,
    writeChunkType_dataId, writeLongLE_eq, writeShortLE_eq, channels, align, rate, byteRate,
    betweenSizes, Wave.format, List.append_assoc]
  rfl

/-- The bytes of a sound, with its two sizes. -/
theorem encode_eq (wave : Wave) :
    wave.encode = riff.bytes ++ (littleEndian 4 (2 * wave.samples.length + 36) ++
      (betweenSizes wave.channels wave.sampleRate ++ (littleEndian 4 (2 * wave.samples.length) ++
        wave.samples.flatMap Wave.encodeSample))) := by
  have even : Chunk.padding (2 * wave.samples.length) = [] := by simp [Chunk.padding]
  have evenForm : Chunk.padding (2 * wave.samples.length + 36) = [] := by
    simp [Chunk.padding, Nat.add_mod]
  have size : wave.form.body.length = 2 * wave.samples.length + 36 := by
    rw [Form.length_body]
    change 4 + ([Wave.formatChunk wave.channels wave.sampleRate,
      wave.dataChunk].flatMap Chunk.encode).length = _
    rw [Wave.length_chunks]
    ring
  have outer : wave.encode = riff.bytes ++ (littleEndian 4 wave.form.body.length ++
      (wave.form.body ++ Chunk.padding wave.form.body.length)) := rfl
  rw [outer, size, evenForm, List.append_nil]
  have body : wave.form.body = waveKind.bytes ++
      ((Wave.formatChunk wave.channels wave.sampleRate).encode ++ (wave.dataChunk.encode ++ [])) :=
    rfl
  rw [body]
  simp only [Chunk.encode, Wave.formatChunk, Wave.dataChunk, Wave.length_format,
    Wave.length_flatMap_encodeSample, even, betweenSizes, List.append_assoc, List.append_nil]
  rfl

/-- Closing the writer of a sound leaves its bytes. -/
theorem closeWriter_encode (wave : Wave) {dataSize : Int} {content : List UInt8}
    (recorded : Recorded wave.sampleRate wave.channels wave.samples writer)
    (ok : closeWriter disk writer = .ok (dataSize, content)) :
    content = disk.closed ⟨wave.encode, 8⟩ := by
  obtain ⟨first, sought, rest⟩ := exists_of_bind_ok ok
  obtain ⟨second, stored, rest⟩ := exists_of_bind_ok rest
  obtain ⟨third, soughtAgain, rest⟩ := exists_of_bind_ok rest
  obtain ⟨fourth, storedAgain, rest⟩ := exists_of_bind_ok rest
  cases rest
  have size : (UInt32.ofNat writer.dataSize).toNat = 2 * wave.samples.length := by
    have bound := wave.samples_lt
    rw [recorded.dataSize]
    exact UInt32.toNat_ofNat_of_lt (by simp [UInt32.size]; omega)
  have riffSize : (UInt32.ofNat (writer.dataSize + (wavHeaderSize - 8))).toNat =
      2 * wave.samples.length + 36 := by
    have bound := wave.samples_lt
    rw [recorded.dataSize]
    exact UInt32.toNat_ofNat_of_lt (by simp [UInt32.size, wavHeaderSize]; omega)
  have patched : second = ⟨wavHeader wave.sampleRate wave.channels ++
      (littleEndian 4 (2 * wave.samples.length) ++ wave.samples.flatMap Wave.encodeSample),
        (wavHeader wave.sampleRate wave.channels).length + 4⟩ := by
    rw [Disk.write_ok stored, Disk.fseek_ok sought, recorded.fid, recorded.dataSizeOffset,
      writeLongLE_eq, size, unfinished, writeLongLE_eq]
    simpa using File.put_patch (wavHeader wave.sampleRate wave.channels)
      (littleEndian 4 (0 : UInt32).toNat) (littleEndian 4 (2 * wave.samples.length))
      (wave.samples.flatMap Wave.encodeSample) (by simp)
  have whole : fourth = ⟨wave.encode, 8⟩ := by
    rw [Disk.write_ok storedAgain, Disk.fseek_ok soughtAgain, patched, writeLongLE_eq, riffSize,
      wavHeader_eq, encode_eq]
    simpa [riff] using File.put_patch riff.bytes (littleEndian 4 0)
      (littleEndian 4 (2 * wave.samples.length + 36))
      (betweenSizes wave.channels wave.sampleRate ++ (littleEndian 4 (2 * wave.samples.length) ++
        wave.samples.flatMap Wave.encodeSample)) (by simp)
  rw [whole]

/-! ## Disks on which nothing fails -/

namespace Disk.Reliable

variable (reliable : disk.Reliable)

include reliable

theorem write (file : File) (data : List UInt8) :
    disk.write file data = .ok (file.put data) := by
  have all := Nat.min_eq_right (reliable.accepts file data)
  rw [Disk.write_eq, if_neg (not_not.mpr all), all, List.take_length]

theorem fseek (file : File) (position : Nat) :
    disk.fseek file position = .ok { file with position } := by
  rw [Disk.fseek, if_pos (reliable.seeks file position)]

theorem openWriter (frameRate samplesPerFrame : Nat) :
    ∃ opened, WavFile.openWriter disk frameRate samplesPerFrame = .ok opened := by
  have stored := reliable.write ⟨[], 0⟩ (wavHeader frameRate samplesPerFrame ++ writeLongLE 0)
  simp only [WavFile.openWriter, if_pos reliable.opens, stored]
  exact ⟨_, rfl⟩

theorem writeEach (file : File) (samples : List Int16) :
    ∃ next, WavFile.writeEach disk file samples = .ok next := by
  induction samples generalizing file with
  | nil => exact ⟨file, rfl⟩
  | cons sample samples ih =>
      rw [WavFile.writeEach, reliable.write]
      exact ih _

theorem writeShorts (writer : WavWriter) {samples : List Int16} (nonempty : samples ≠ []) :
    ∃ written, WavFile.writeShorts disk writer samples = .ok written := by
  have positive : ¬samples.length ≤ 0 := by
    rw [Nat.le_zero, List.length_eq_zero_iff]
    exact nonempty
  obtain ⟨next, stored⟩ := reliable.writeEach writer.fid samples
  rw [WavFile.writeShorts, if_neg positive, stored]
  exact ⟨_, rfl⟩

theorem closeWriter (writer : WavWriter) :
    ∃ held, WavFile.closeWriter disk writer = .ok held := by
  simp only [WavFile.closeWriter, reliable.fseek, reliable.write]
  exact ⟨_, rfl⟩

theorem writeBlocks (writer : WavWriter) (blocks : List (List Int16))
    (nonempty : ∀ block ∈ blocks, block ≠ []) :
    ∃ next, WavFile.writeBlocks disk writer blocks = .ok next := by
  induction blocks generalizing writer with
  | nil => exact ⟨writer, rfl⟩
  | cons block blocks ih =>
      obtain ⟨⟨_, between⟩, stored⟩ := reliable.writeShorts writer
        (nonempty block List.mem_cons_self)
      rw [WavFile.writeBlocks, stored]
      exact ih between fun other member => nonempty other (List.mem_cons_of_mem block member)

/-- A file is written unless one of its blocks is empty. -/
theorem writeFile (frameRate samplesPerFrame : Nat) (blocks : List (List Int16))
    (nonempty : ∀ block ∈ blocks, block ≠ []) :
    ∃ content, WavFile.writeFile disk frameRate samplesPerFrame blocks = .ok content := by
  obtain ⟨⟨_, opened⟩, ok_open⟩ := reliable.openWriter frameRate samplesPerFrame
  obtain ⟨written, ok_write⟩ := reliable.writeBlocks opened blocks nonempty
  obtain ⟨⟨_, content⟩, ok_close⟩ := reliable.closeWriter written
  refine ⟨content, ?_⟩
  rw [WavFile.writeFile, ok_open]
  change (WavFile.writeBlocks disk opened blocks >>= _) = _
  rw [ok_write]
  change (WavFile.closeWriter disk written >>= _) = _
  rw [ok_close]
  rfl

theorem recordLoop (read : Nat → SampleBlock) (writer : WavWriter) (sampleBlock : SampleBlock)
    (is : List Nat) : ∃ after, WavFile.recordLoop disk read writer sampleBlock is = .ok after := by
  induction is generalizing writer sampleBlock with
  | nil => exact ⟨_, rfl⟩
  | cons i is ih =>
      have nonempty : sampleBlock.samples ≠ [] := by
        rw [← List.length_pos_iff, sampleBlock.length_eq]
        decide
      obtain ⟨⟨_, next⟩, stored⟩ := reliable.writeShorts writer nonempty
      rw [WavFile.recordLoop, stored]
      exact ih next (read i)

/-- The recording is made. -/
theorem generateAudioFile (time : Str) (read : Nat → SampleBlock) (sampleBlock : SampleBlock) :
    ∃ file, WavFile.generateAudioFile disk time read sampleBlock = .ok file := by
  obtain ⟨⟨_, opened⟩, ok_open⟩ := reliable.openWriter sampleRate 1
  obtain ⟨⟨written, last⟩, ok_write⟩ := reliable.recordLoop read opened sampleBlock (List.range 65)
  obtain ⟨⟨_, held⟩, ok_close⟩ := reliable.closeWriter written
  refine ⟨⟨audioFile time, held, last⟩, ?_⟩
  rw [WavFile.generateAudioFile, ok_open]
  change (WavFile.recordLoop disk read opened sampleBlock (List.range 65) >>= _) = _
  rw [ok_write]
  change ((WavFile.closeWriter disk written).mapError _ >>= _) = _
  rw [ok_close]
  rfl

end Disk.Reliable

/-! ## The blocks of a recording -/

/-- The blocks that the loop writes. -/
def writtenBlocks (read : Nat → SampleBlock) : SampleBlock → List Nat → List (List Int16)
  | _, [] => []
  | sampleBlock, i :: is => sampleBlock.samples :: writtenBlocks read (read i) is

variable {read : Nat → SampleBlock} {sampleBlock : SampleBlock}

theorem exists_of_mapError_ok {ε ε' α : Type} {f : ε → ε'} {result : Except ε α} {a : α}
    (ok : result.mapError f = .ok a) : result = .ok a := by
  cases result with
  | error e => cases ok
  | ok b =>
      cases ok
      rfl

theorem recordLoop_writes {is : List Nat} {last : SampleBlock}
    (ok : recordLoop disk read writer sampleBlock is = .ok (next, last)) :
    writeBlocks disk writer (writtenBlocks read sampleBlock is) = .ok next := by
  induction is generalizing writer sampleBlock with
  | nil =>
      cases ok
      rfl
  | cons i is ih =>
      obtain ⟨⟨_, between⟩, first, rest⟩ := exists_of_bind_ok ok
      rw [writtenBlocks, writeBlocks, exists_of_mapError_ok first]
      exact ih rest

/-- The block that was loud comes first, and what is read last is not written. -/
theorem writtenBlocks_range (start count : Nat) :
    writtenBlocks read sampleBlock (List.range' start (count + 1)) =
      sampleBlock.samples :: (List.range' start count).map fun i => (read i).samples := by
  induction count generalizing start sampleBlock with
  | zero => rfl
  | succ count ih =>
      rw [List.range'_succ, writtenBlocks, ih, List.range'_succ, List.map_cons]

theorem length_flatMap_read (read : Nat → SampleBlock) (is : List Nat) :
    (is.flatMap fun i => (read i).samples).length = is.length * framesPerBuffer := by
  induction is with
  | nil => simp
  | cons i is ih =>
      rw [List.flatMap_cons, List.length_append, ih, (read i).length_eq, List.length_cons]
      ring

/-! ## Main results -/

/-- A file that was written without an error holds exactly the samples of all
its blocks, as a reader of sound finds them that checks every size. -/
theorem writeFile_decode {frameRate samplesPerFrame : Nat} {blocks : List (List Int16)}
    {content : List UInt8} (flushed : ∀ file, disk.closed file = file.bytes)
    (channels_lt : samplesPerFrame * 2 < 2 ^ 15) (frameRate_lt : frameRate < 2 ^ 31)
    (byteRate_lt : frameRate * samplesPerFrame * 2 < 2 ^ 31)
    (size_lt : 2 * blocks.flatten.length + 36 < 2 ^ 31)
    (ok : writeFile disk frameRate samplesPerFrame blocks = .ok content) :
    ∃ wave, Wave.decode content = some wave ∧ wave.channels = samplesPerFrame ∧
      wave.sampleRate = frameRate ∧ wave.samples = blocks.flatten := by
  obtain ⟨⟨_, opened⟩, ok_open, rest⟩ := exists_of_bind_ok ok
  obtain ⟨written, ok_write, rest⟩ := exists_of_bind_ok rest
  obtain ⟨⟨_, held⟩, ok_close, rest⟩ := exists_of_bind_ok rest
  cases rest
  have recorded := writeBlocks_recorded (openWriter_recorded ok_open) ok_write
  rw [List.nil_append] at recorded
  let wave : Wave := ⟨samplesPerFrame, frameRate, blocks.flatten, by omega, by omega, by omega,
    by omega⟩
  have bytes := closeWriter_encode wave recorded ok_close
  rw [flushed] at bytes
  exact ⟨wave, by rw [bytes, Wave.decode_encode], rfl, rfl, rfl⟩

/-- A disk on which nothing fails. -/
def plainDisk : Disk where
  opens := true
  accepts := fun _ data => data.length
  seeks := fun _ _ => true
  closed := File.bytes

theorem plainDisk_reliable : plainDisk.Reliable :=
  ⟨rfl, fun _ _ => le_rfl, fun _ _ => rfl⟩

theorem writeFile_decode_stereo :
    ∃ content, writeFile plainDisk 8000 2 [[1, -1], [300, -32768]] = .ok content ∧
      ∃ wave, Wave.decode content = some wave ∧ wave.channels = 2 ∧
        wave.sampleRate = 8000 ∧ wave.samples = [1, -1, 300, -32768] := by
  have size : 2 * [[1, -1], [300, (-32768 : Int16)]].flatten.length + 36 < 2 ^ 31 := by decide
  obtain ⟨content, made⟩ := plainDisk_reliable.writeFile 8000 2
    [[1, -1], [300, -32768]] (by decide)
  exact ⟨content, made, writeFile_decode (fun _ => rfl) (by decide : 2 * 2 < 2 ^ 15)
    (by decide : 8000 < 2 ^ 31) (by decide : 8000 * 2 * 2 < 2 ^ 31) size made⟩

/-- A recording, once it is made, is sound of one channel that starts with the block that was
loud and goes on with the next sixty-four blocks; the block that is read last is lost. -/
theorem generateAudioFile_decode {time : Str} {read : Nat → SampleBlock}
    {sampleBlock : SampleBlock} {file : AudioFile}
    (flushed : ∀ file, disk.closed file = file.bytes)
    (ok : generateAudioFile disk time read sampleBlock = .ok file) :
    file.name = audioFile time ∧
      ∃ wave, Wave.decode file.content = some wave ∧ wave.channels = 1 ∧
        wave.sampleRate = 44100 ∧
          wave.samples =
            sampleBlock.samples ++ (List.range 64).flatMap fun i => (read i).samples := by
  obtain ⟨⟨_, opened⟩, ok_open, rest⟩ := exists_of_bind_ok ok
  obtain ⟨⟨written, last⟩, ok_write, rest⟩ := exists_of_bind_ok rest
  obtain ⟨⟨_, held⟩, ok_close, rest⟩ := exists_of_bind_ok rest
  cases rest
  have blocks : (writtenBlocks read sampleBlock (List.range 65)).flatten =
      sampleBlock.samples ++ (List.range 64).flatMap fun i => (read i).samples := by
    rw [List.range_eq_range', writtenBlocks_range, List.flatten_cons, ← List.range_eq_range',
      List.flatMap_def]
  have whole : writeFile disk sampleRate 1 (writtenBlocks read sampleBlock (List.range 65)) =
      .ok held := by
    rw [writeFile, exists_of_mapError_ok ok_open]
    change (writeBlocks disk opened _ >>= _) = _
    rw [recordLoop_writes ok_write]
    change (closeWriter disk written >>= _) = _
    rw [exists_of_mapError_ok ok_close]
    rfl
  have size : (sampleBlock.samples ++
      (List.range 64).flatMap fun i => (read i).samples).length = 133120 := by
    rw [List.length_append, length_flatMap_read, sampleBlock.length_eq, List.length_range]
    rfl
  obtain ⟨wave, decoded, channels, rate, samples⟩ :=
    writeFile_decode flushed (by norm_num) (by norm_num [sampleRate]) (by norm_num [sampleRate])
      (by rw [blocks, size]; norm_num) whole
  exact ⟨rfl, wave, decoded, channels, rate, samples.trans blocks⟩

end Sentri.Modules.NoiseDetection.WavFile
