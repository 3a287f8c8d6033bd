import Sentri.Modules.NoiseDetection.Recordings
import Sentri.Modules.NoiseDetection.WavFile

/-!
# The sound behind an event

The loop over the rules on a disk, where a recording that fails ends the module.  An event
names a file only after this file was recorded, and the loop goes on as if nothing could
fail.
-/

namespace Sentri.Modules.NoiseDetection.WavFile

open Sentri.Data Sentri.LibModule Sentri.Text

/-! ## The loop over the rules -/

/-- What a part of the main loop sends, and the variables it leaves with the file that was
written, or the message with which it ends the module. -/
abbrev Attempt : Type :=
  List Effect × Except Message (Detection × Option AudioFile)

/-- Record the noise on a disk, unless a previous rule did. -/
def recordNoiseOn (disk : Disk) (read : Nat → SampleBlock) (sampleBlock : SampleBlock)
    (round : Round) (detection : Detection) (file : Option AudioFile) : Attempt :=
  if detection.fileGenerated then
    ([], .ok (detection, file))
  else
    let begun := [.sent (MessageHandler.sendHeartbeat moduleName),
      .sent (MessageHandler.log moduleName .info "Sound detected: Recording started".toList)]
    match generateAudioFile disk round.time read sampleBlock with
    | .error last => (begun ++ [.sent last], .error last)
    | .ok made =>
        (begun ++ [.sent (MessageHandler.log moduleName .info
            "Sound detected: Recording finished".toList)],
          .ok ({ detection with fileGenerated := true, filePath := made.name }, some made))

/-- The loop over the rules on a disk. -/
def ruleLoopOn (disk : Disk) (read : Nat → SampleBlock) (sampleBlock : SampleBlock)
    (recording : Nat) (round : Round) (detection : Detection) (file : Option AudioFile) :
    List RuleInfo → Attempt
  | [] => ([], .ok (detection, file))
  | rule :: left =>
      if round.loud rule then
        match recordNoiseOn disk read sampleBlock round detection file with
        | (recorded, .error last) => (recorded, .error last)
        | (recorded, .ok (detection, file)) =>
            let events := sendEvent recording round detection rule
            let (rest, outcome) := ruleLoopOn disk read sampleBlock recording round
              { detection with numOfRules := detection.numOfRules + 1 } file left
            (recorded ++ events ++
              .sent (MessageHandler.sendHeartbeat moduleName) :: rest, outcome)
      else
        ruleLoopOn disk read sampleBlock recording round detection file left

section Loop

variable {disk : Disk} {read : Nat → SampleBlock} {sampleBlock : SampleBlock} {round : Round}
  {recording : Nat} {detection after : Detection} {file written : Option AudioFile}
  {rules : List RuleInfo}

/-- A file that has been generated is the recording of the noise. -/
def Generated (disk : Disk) (read : Nat → SampleBlock) (sampleBlock : SampleBlock) (time : Str)
    (detection : Detection) (file : Option AudioFile) : Prop :=
  detection.fileGenerated = true → ∃ made,
    generateAudioFile disk time read sampleBlock = .ok made ∧ file = some made ∧
      detection.filePath = made.name

theorem Generated.count {time : Str} {numOfRules : Nat}
    (generated : Generated disk read sampleBlock time detection file) :
    Generated disk read sampleBlock time { detection with numOfRules } file :=
  generated

theorem generated_none (time : Str) :
    Generated disk read sampleBlock time .none none := by
  intro generated
  cases generated

/-- The name of a recording that was made. -/
theorem generateAudioFile_name {time : Str} {made : AudioFile}
    (ok : generateAudioFile disk time read sampleBlock = .ok made) :
    made.name = audioFile time := by
  obtain ⟨_, _, rest⟩ := exists_of_bind_ok ok
  obtain ⟨_, _, rest⟩ := exists_of_bind_ok rest
  obtain ⟨_, _, rest⟩ := exists_of_bind_ok rest
  cases rest
  rfl

/-- Either the module ends without having sent an event, or the noise is recorded as if
nothing could fail. -/
theorem recordNoiseOn_cases
    (generated : Generated disk read sampleBlock round.time detection file) :
    (∃ recorded last, recordNoiseOn disk read sampleBlock round detection file =
        (recorded, .error last) ∧ ∀ effect ∈ recorded, ∃ message, effect = .sent message) ∨
      ∃ written, recordNoiseOn disk read sampleBlock round detection file =
          ((recordNoise round detection).2, .ok ((recordNoise round detection).1, written)) ∧
        (recordNoise round detection).1.fileGenerated = true ∧
        Generated disk read sampleBlock round.time (recordNoise round detection).1 written := by
  unfold recordNoiseOn recordNoise
  cases again : detection.fileGenerated with
  | true =>
      right
      exact ⟨file, rfl, again, generated⟩
  | false =>
      simp only [Bool.false_eq_true, if_false]
      cases made : generateAudioFile disk round.time read sampleBlock with
      | error last =>
          left
          refine ⟨_, _, rfl, ?_⟩
          simp
      | ok audio =>
          right
          have name := generateAudioFile_name made
          refine ⟨some audio, ?_, trivial, fun _ => ⟨audio, made, rfl, name.symm⟩⟩
          dsimp only
          rw [name]
          rfl

/-- An event carries the name of the recording of its round. -/
def Named (disk : Disk) (read : Nat → SampleBlock) (sampleBlock : SampleBlock) (time : Str)
    (event : Event) : Prop :=
  ∃ made, generateAudioFile disk time read sampleBlock = .ok made ∧
    event.vars = snprintf msgVarSize ("audioFile=".toList ++ made.name)

theorem named_sendEvent (generated : Generated disk read sampleBlock round.time detection file)
    (ready : detection.fileGenerated = true) (rule : RuleInfo) {ref : EventRef} {event : Event}
    (sent : .sentEvent ref event ∈ sendEvent recording round detection rule) :
    Named disk read sampleBlock round.time event := by
  rcases generated ready with ⟨made, ok, _, name⟩
  unfold sendEvent at sent
  split at sent
  · cases List.mem_singleton.mp sent
    exact ⟨made, ok, by rw [name]⟩
  · cases sent

/-- Every event of the loop carries the name of the recording. -/
theorem named_ruleLoopOn (generated : Generated disk read sampleBlock round.time detection file)
    {ref : EventRef} {event : Event}
    (sent : .sentEvent ref event ∈
      (ruleLoopOn disk read sampleBlock recording round detection file rules).1) :
    Named disk read sampleBlock round.time event := by
  induction rules generalizing detection file with
  | nil => cases sent
  | cons rule left ih =>
      unfold ruleLoopOn at sent
      split at sent
      · rcases recordNoiseOn_cases generated with
          ⟨recorded, last, failed, quiet⟩ | ⟨written, made, ready, next⟩
        · rw [failed] at sent
          rcases quiet _ sent with ⟨message, equal⟩
          cases equal
        · rw [made] at sent
          dsimp only at sent
          rcases List.mem_append.mp sent with early | late
          · rcases List.mem_append.mp early with recorded | announced
            · rcases recordNoise_quiet round detection _ recorded with ⟨message, equal⟩
              cases equal
            · exact named_sendEvent next ready rule announced
          · rcases List.mem_cons.mp late with beat | rest
            · cases beat
            · exact ih next.count rest
      · exact ih generated sent

/-- A loop that does not end the module is the one in which no recording fails. -/
theorem ruleLoopOn_eq (generated : Generated disk read sampleBlock round.time detection file)
    (ok : (ruleLoopOn disk read sampleBlock recording round detection file rules).2 =
      .ok (after, written)) :
    ruleLoop recording round detection rules =
      (after, (ruleLoopOn disk read sampleBlock recording round detection file rules).1) := by
  induction rules generalizing detection file with
  | nil =>
      cases ok
      rfl
  | cons rule left ih =>
      unfold ruleLoopOn at ok ⊢
      unfold ruleLoop
      split at ok
      next loud =>
        rw [if_pos loud, if_pos loud]
        rcases recordNoiseOn_cases generated with
          ⟨recorded, last, failed, _⟩ | ⟨made, recorded, ready, next⟩
        · rw [failed] at ok
          cases ok
        · rw [recorded] at ok ⊢
          dsimp only at ok ⊢
          rw [ih next.count ok]
      next soft =>
        rw [if_neg soft, if_neg soft]
        exact ih generated ok

end Loop

/-- The events of a noise.  Whatever fails, an event names a file only after it was recorded,
and what such a file holds is the sound.  Unless the module ends, the loop does what it does
where no recording fails. -/
theorem recorded_events {disk : Disk} (flushed : ∀ file, disk.closed file = file.bytes)
    (read : Nat → SampleBlock) (sampleBlock : SampleBlock) (recording : Nat) (round : Round)
    (rules : List RuleInfo) :
    let attempt := ruleLoopOn disk read sampleBlock recording round .none none rules
    (∀ ref event, .sentEvent ref event ∈ attempt.1 → ∃ (made : AudioFile) (wave : Wave),
      event.vars = snprintf msgVarSize ("audioFile=".toList ++ made.name) ∧
        generateAudioFile disk round.time read sampleBlock = .ok made ∧
        Wave.decode made.content = some wave ∧ wave.channels = 1 ∧ wave.sampleRate = 44100 ∧
        wave.samples = sampleBlock.samples ++ (List.range 64).flatMap fun i => (read i).samples) ∧
      ∀ after written, attempt.2 = .ok (after, written) →
        ruleLoop recording round .none rules = (after, attempt.1) := by
  intro attempt
  constructor
  · intro ref event sent
    rcases named_ruleLoopOn (generated_none round.time) sent with ⟨made, ok, vars⟩
    rcases generateAudioFile_decode flushed ok with ⟨_, wave, decoded⟩
    exact ⟨made, wave, vars, ok, decoded⟩
  · intro after written ok
    exact ruleLoopOn_eq (generated_none round.time) ok


/-- On a disk where nothing fails the loop goes on. -/
theorem ruleLoopOn_reliable {disk : Disk} (reliable : disk.Reliable) (read : Nat → SampleBlock)
    (sampleBlock : SampleBlock) (recording : Nat) (round : Round) (detection : Detection)
    (file : Option AudioFile) (rules : List RuleInfo) :
    ∃ result,
      (ruleLoopOn disk read sampleBlock recording round detection file rules).2 = .ok result := by
  induction rules generalizing detection file with
  | nil => exact ⟨_, rfl⟩
  | cons rule left ih =>
      rcases reliable.generateAudioFile round.time read sampleBlock with ⟨made, ok⟩
      unfold ruleLoopOn
      split
      · cases generated : detection.fileGenerated <;>
          simp only [recordNoiseOn, generated, ok, if_true, Bool.false_eq_true, if_false] <;>
          exact ih _ _
      · exact ih _ _

/-- A block in which every sample is the same. -/
def SampleBlock.still (sample : Int16) : SampleBlock :=
  ⟨List.replicate framesPerBuffer sample, List.length_replicate⟩

/-- Two rules hear the same noise. -/
def loudRules : List RuleInfo :=
  [noiseRule, { noiseRule with id := 2 }]

/-- A round in which every rule is loud enough. -/
def loudRound : Round where
  loud := fun _ => true
  time := "20160701T120000".toList
  passes := fun _ => true
  launched := true

theorem effects_of_ruleLoop {recording : Nat} {round : Round} {after : Detection}
    {effects : List Effect} {rules : List RuleInfo}
    (equal : ruleLoop recording round .none rules = (after, effects)) :
    (ruleLoop recording round .none rules).2 = effects := by
  rw [equal]

/-- The second rule gets the recording as well. -/
theorem recorded_events_loud :
    ∃ (made : AudioFile) (wave : Wave),
      .sentEvent ⟨0, 1⟩ ⟨2, snprintf msgVarSize ("audioFile=".toList ++ made.name)⟩ ∈
        (ruleLoopOn plainDisk (fun _ => .still 7) (.still 9000) 0 loudRound .none none
          loudRules).1 ∧
      Wave.decode made.content = some wave ∧ wave.samples = (SampleBlock.still 9000).samples ++
        (List.range 64).flatMap fun _ => (SampleBlock.still 7).samples := by
  have flushed : ∀ file, plainDisk.closed file = file.bytes := fun _ => rfl
  rcases recorded_events flushed (fun _ => .still 7) (.still 9000) 0 loudRound loudRules with
    ⟨sound, whole⟩
  rcases ruleLoopOn_reliable plainDisk_reliable (fun _ => .still 7) (.still 9000) 0 loudRound .none
    none loudRules with ⟨⟨after, written⟩, ok⟩
  have inLoop : ∃ text, Effect.sentEvent ⟨0, 1⟩ ⟨2, text⟩ ∈
      (ruleLoop 0 loudRound .none loudRules).2 :=
    ⟨snprintf msgVarSize "audioFile=/tmp/sentri/audio/noise20160701T120000.wav".toList,
      by decide +kernel⟩
  rcases inLoop with ⟨text, inLoop⟩
  rw [effects_of_ruleLoop (whole after written ok)] at inLoop
  rcases sound _ _ inLoop with ⟨made, wave, vars, _, decoded, _, _, samples⟩
  obtain rfl : text = snprintf msgVarSize ("audioFile=".toList ++ made.name) := vars
  exact ⟨made, wave, inLoop, decoded, samples⟩

end Sentri.Modules.NoiseDetection.WavFile
