import Sentri.Modules.NoiseDetection.Module
import Mathlib.Data.List.Perm.Subperm
import Mathlib.Data.List.Nodup

/-!
# Recordings and their events

`deleteFile` counts messages without looking at them.  As long as it only finds
answers to the events of its own recording, each of them at most once, the count
is right, and a file is removed when all its events are answered or after a
timeout.  Answers that come after the timeout of their recording are counted for
a later one.
-/

namespace Sentri.Modules.NoiseDetection

open Sentri.LibModule Sentri.Text Sentri.Transition

/-- All effects of a run, in order. -/
def effects (rules : List RuleInfo) (ops : List Op) : List Effect :=
  ((machine rules).run ops).trace.map Prod.snd

/-- Every event message of the recording was answered by a message that its
call of `deleteFile` received, or that call waited in vain. -/
def Settled (recording : Nat) (before : List Effect) : Prop :=
  .timedOut recording ∈ before ∨
  ∀ ref event, .sentEvent ref event ∈ before → ref.recording = recording →
    ∃ reply, .counted recording reply ∈ before ∧ reply.ref = ref

/-- A recording is removed only after its own events are settled, and no answer
counts for another recording. -/
structure Kept (all : List Effect) : Prop where
  settled : Throughout (fun before effect =>
    ∀ recording fileName, effect = .removed recording fileName → Settled recording before) all
  own : ∀ recording reply, .counted recording reply ∈ all → reply.ref.recording = recording

/-- The message that `deleteFile` finds answers an event of its recording. -/
def FindsOwn (system : System) : Op → Prop
  | .receive => ∀ deletion reply left, system.deletion = some deletion →
      system.queue = reply :: left → reply.ref.recording = deletion.recording
  | _ => True

/-- `deleteFile` finds only answers to events of its recording in the run. -/
def FindsOnlyOwn (rules : List RuleInfo) (ops : List Op) : Prop :=
  Throughout (fun before op => FindsOwn ((machine rules).run before).state op) ops

/-! ## Event messages and their answers -/

def Effect.counted? : Effect → Option EventRef
  | .counted _ reply => some reply.ref
  | _ => none

/-- The event messages of a list of effects. -/
def sentRefs (all : List Effect) : List EventRef :=
  (all.filterMap Effect.event?).map Prod.fst

/-- The event messages whose answers were counted. -/
def countedRefs (all : List Effect) : List EventRef :=
  all.filterMap Effect.counted?

/-- Those of a recording. -/
def ofRecording (recording : Nat) (refs : List EventRef) : List EventRef :=
  refs.filter (·.recording = recording)

theorem sentRefs_append (first second : List Effect) :
    sentRefs (first ++ second) = sentRefs first ++ sentRefs second := by
  simp [sentRefs]

theorem countedRefs_append (first second : List Effect) :
    countedRefs (first ++ second) = countedRefs first ++ countedRefs second := by
  simp [countedRefs]

theorem mem_sentRefs {all : List Effect} {ref : EventRef} :
    ref ∈ sentRefs all ↔ ∃ event, .sentEvent ref event ∈ all := by
  simp only [sentRefs, List.mem_map, List.mem_filterMap, Prod.exists, exists_and_right,
    exists_eq_right]
  constructor
  · rintro ⟨event, effect, member, equal⟩
    cases effect <;> simp [Effect.event?] at equal
    rcases equal with ⟨rfl, rfl⟩
    exact ⟨_, member⟩
  · rintro ⟨event, member⟩
    exact ⟨event, _, member, rfl⟩

theorem mem_countedRefs {all : List Effect} {ref : EventRef} :
    ref ∈ countedRefs all ↔
      ∃ recording reply, .counted recording reply ∈ all ∧ reply.ref = ref := by
  simp only [countedRefs, List.mem_filterMap]
  constructor
  · rintro ⟨effect, member, equal⟩
    cases effect <;> simp [Effect.counted?] at equal
    exact ⟨_, _, member, equal⟩
  · rintro ⟨recording, reply, member, rfl⟩
    exact ⟨_, member, rfl⟩

theorem mem_ofRecording {recording : Nat} {refs : List EventRef} {ref : EventRef} :
    ref ∈ ofRecording recording refs ↔ ref ∈ refs ∧ ref.recording = recording := by
  simp [ofRecording]

theorem ofRecording_append (recording : Nat) (first second : List EventRef) :
    ofRecording recording (first ++ second) =
      ofRecording recording first ++ ofRecording recording second := by
  simp [ofRecording]

/-! ## The rule loop -/

theorem recordNoise_quiet (round : Round) (detection : Detection) :
    ∀ effect ∈ (recordNoise round detection).2, ∃ message, effect = .sent message := by
  unfold recordNoise
  split
  · simp
  · simp

theorem recordNoise_numOfRules (round : Round) (detection : Detection) :
    (recordNoise round detection).1.numOfRules = detection.numOfRules := by
  unfold recordNoise
  split <;> rfl

theorem recordNoise_fileGenerated (round : Round) (detection : Detection) :
    (recordNoise round detection).1.fileGenerated = true := by
  unfold recordNoise
  split
  · assumption
  · rfl

/-- The loop only sends messages. -/
theorem ruleLoop_sends (recording : Nat) (round : Round) (detection : Detection)
    (rules : List RuleInfo) :
    ∀ effect ∈ (ruleLoop recording round detection rules).2,
      (∃ ref event, effect = .sentEvent ref event) ∨ ∃ message, effect = .sent message := by
  induction rules generalizing detection with
  | nil => simp [ruleLoop]
  | cons rule left ih =>
      intro effect member
      rw [ruleLoop] at member
      split at member
      · rcases List.mem_append.mp member with now | rest
        · rcases List.mem_append.mp now with recorded | event
          · exact Or.inr (recordNoise_quiet round detection effect recorded)
          · left
            unfold sendEvent at event
            split at event
            · exact ⟨_, _, List.mem_singleton.mp event⟩
            · simp at event
        · rcases List.mem_cons.mp rest with beat | rest
          · exact Or.inr ⟨_, beat⟩
          · exact ih _ effect rest
      · exact ih detection effect member

theorem ruleLoop_fileGenerated {recording : Nat} {round : Round} {detection : Detection}
    {rules : List RuleInfo} (generated : detection.fileGenerated = true) :
    (ruleLoop recording round detection rules).1.fileGenerated = true := by
  induction rules generalizing detection with
  | nil => exact generated
  | cons rule left ih =>
      rw [ruleLoop]
      split
      · exact ih (recordNoise_fileGenerated round detection)
      · exact ih generated

/-- A round without a recording sends nothing. -/
theorem ruleLoop_silent {recording : Nat} {round : Round} {detection : Detection}
    {rules : List RuleInfo}
    (silent : (ruleLoop recording round detection rules).1.fileGenerated = false) :
    (ruleLoop recording round detection rules).2 = [] := by
  induction rules generalizing detection with
  | nil => rfl
  | cons rule left ih =>
      rw [ruleLoop] at silent ⊢
      split at silent
      · have generated : (ruleLoop recording round
            { (recordNoise round detection).1 with
              numOfRules := (recordNoise round detection).1.numOfRules + 1 }
            left).1.fileGenerated = true :=
          ruleLoop_fileGenerated (recordNoise_fileGenerated round detection)
        have impossible := generated.symm.trans silent
        cases impossible
      · next quiet =>
          rw [if_neg quiet]
          exact ih silent

theorem sentRefs_of_messages {all : List Effect}
    (messages : ∀ effect ∈ all, ∃ message, effect = .sent message) : sentRefs all = [] := by
  rw [sentRefs, List.map_eq_nil_iff, List.filterMap_eq_nil_iff]
  intro effect member
  rcases messages effect member with ⟨message, rfl⟩
  rfl

/-- The event messages of a round are numbered, and at most one for each rule
that was counted. -/
theorem ruleLoop_refs (recording : Nat) (round : Round) (detection : Detection)
    (rules : List RuleInfo) :
    (sentRefs (ruleLoop recording round detection rules).2).Nodup ∧
      (∀ ref ∈ sentRefs (ruleLoop recording round detection rules).2,
        ref.recording = recording ∧ detection.numOfRules ≤ ref.rule) ∧
      detection.numOfRules + (sentRefs (ruleLoop recording round detection rules).2).length ≤
        (ruleLoop recording round detection rules).1.numOfRules := by
  induction rules generalizing detection with
  | nil => simp [ruleLoop, sentRefs]
  | cons rule left ih =>
      rw [ruleLoop]
      split
      · obtain ⟨distinct, later, bound⟩ := ih { (recordNoise round detection).1 with
          numOfRules := (recordNoise round detection).1.numOfRules + 1 }
        have number := recordNoise_numOfRules round detection
        have quiet := sentRefs_of_messages (recordNoise_quiet round detection)
        simp only [number] at distinct later bound
        simp only [sentRefs_append, quiet, List.nil_append, number]
        by_cases passes : round.passes detection.numOfRules = true
        · have one : sentRefs (sendEvent recording round (recordNoise round detection).1
              rule) = [⟨recording, detection.numOfRules⟩] := by
            simp [sendEvent, number, passes, sentRefs, Effect.event?]
          rw [one]
          simp only [sentRefs, List.filterMap_cons, Effect.event?] at distinct later bound ⊢
          refine ⟨?_, ?_, ?_⟩
          · rw [List.singleton_append, List.nodup_cons]
            refine ⟨?_, distinct⟩
            intro member
            have := (later _ member).2
            simp only at this
            omega
          · intro ref member
            rcases List.mem_append.mp member with now | rest
            · rw [List.mem_singleton.mp now]
              exact ⟨rfl, le_rfl⟩
            · exact ⟨(later ref rest).1, Nat.le_of_succ_le (later ref rest).2⟩
          · rw [List.length_append, List.length_singleton]
            omega
        · have nothingSent : sentRefs (sendEvent recording round
              (recordNoise round detection).1 rule) = [] := by
            simp [sendEvent, number, passes, sentRefs]
          rw [nothingSent]
          simp only [sentRefs, List.filterMap_cons, Effect.event?, List.nil_append]
            at distinct later bound ⊢
          refine ⟨distinct, ?_, ?_⟩
          · intro ref member
            exact ⟨(later ref member).1, Nat.le_of_succ_le (later ref member).2⟩
          · omega
      · exact ih detection

/-! ## Accounts -/

/-- The events of all recordings and their answers: each event message is
answered at most once, and its answer is received at most once. -/
structure Accounted (system : System) (all : List Effect) : Prop where
  kept : Kept all
  sent : (sentRefs all).Nodup
  past : ∀ ref ∈ sentRefs all, ref.recording < system.recordings
  once : (countedRefs all ++ system.queue.map Reply.ref ++
    system.unanswered.map Prod.fst).Nodup
  known : ∀ ref ∈ countedRefs all ++ system.queue.map Reply.ref ++
    system.unanswered.map Prod.fst, ref ∈ sentRefs all

/-- The call has seen a timeout, or it will wait for at least as many messages as
events of its recording are not answered. -/
def Waits (deletion : Deletion) (all : List Effect) : Prop :=
  .timedOut deletion.recording ∈ all ∨
  (ofRecording deletion.recording (sentRefs all)).length ≤
    (ofRecording deletion.recording (countedRefs all)).length + deletion.nrOfRules

/-- The accounts together with the call that is waiting. -/
structure Sound (system : System) (all : List Effect) : Prop extends Accounted system all where
  waits : ∀ deletion, system.deletion = some deletion → Waits deletion all

theorem Settled.mono {recording : Nat} {before after : List Effect}
    (settled : Settled recording before) (noEvent : sentRefs after = []) :
    Settled recording (before ++ after) := by
  rcases settled with timedOut | answered
  · exact Or.inl (List.mem_append_left _ timedOut)
  · right
    intro ref event member own
    rcases List.mem_append.mp member with old | new
    · rcases answered ref event old own with ⟨reply, counted, refEq⟩
      exact ⟨reply, List.mem_append_left _ counted, refEq⟩
    · have := mem_sentRefs.mpr ⟨event, new⟩
      rw [noEvent] at this
      cases this

/-- With nothing left to wait for, the recording is settled. -/
theorem Accounted.settled {system : System} {all : List Effect} {deletion : Deletion}
    (accounted : Accounted system all) (waits : Waits deletion all)
    (done : deletion.nrOfRules = 0) : Settled deletion.recording all := by
  rcases waits with timedOut | enough
  · exact Or.inl timedOut
  · right
    intro ref event member own
    have counted : (countedRefs all).Nodup :=
      accounted.once.of_append_left.of_append_left
    have subset : ofRecording deletion.recording (countedRefs all) ⊆
        ofRecording deletion.recording (sentRefs all) := by
      intro other otherMember
      rcases mem_ofRecording.mp otherMember with ⟨inCounted, recordingEq⟩
      refine mem_ofRecording.mpr ⟨accounted.known other ?_, recordingEq⟩
      exact List.mem_append_left _ (List.mem_append_left _ inCounted)
    have same : (ofRecording deletion.recording (countedRefs all)).Perm
        (ofRecording deletion.recording (sentRefs all)) := by
      apply (List.subperm_of_subset (counted.filter _) subset).perm_of_length_le
      rw [done] at enough
      exact enough
    have inSent : ref ∈ ofRecording deletion.recording (sentRefs all) :=
      mem_ofRecording.mpr ⟨mem_sentRefs.mpr ⟨event, member⟩, own⟩
    obtain ⟨recording, reply, replyMember, refEq⟩ :=
      mem_countedRefs.mp (mem_ofRecording.mp (same.symm.subset inSent)).1
    have recordingEq := accounted.kept.own recording reply replyMember
    rw [refEq, own] at recordingEq
    rw [← recordingEq] at replyMember
    exact ⟨reply, replyMember, refEq⟩

/-- Effects that only send messages. -/
theorem Kept.append_sends {all sends : List Effect} (kept : Kept all)
    (messages : ∀ effect ∈ sends,
      (∃ ref event, effect = .sentEvent ref event) ∨ ∃ message, effect = .sent message) :
    Kept (all ++ sends) where
  settled := by
    apply kept.settled.append
    intro before effect member recording fileName removed
    rcases messages effect member with ⟨ref, event, rfl⟩ | ⟨message, rfl⟩
    · cases removed
    · cases removed
  own := by
    intro recording reply member
    rcases List.mem_append.mp member with old | new
    · exact kept.own recording reply old
    · rcases messages _ new with ⟨ref, event, equal⟩ | ⟨message, equal⟩
      · cases equal
      · cases equal

theorem countedRefs_of_sends {sends : List Effect}
    (messages : ∀ effect ∈ sends,
      (∃ ref event, effect = .sentEvent ref event) ∨ ∃ message, effect = .sent message) :
    countedRefs sends = [] := by
  rw [countedRefs, List.filterMap_eq_nil_iff]
  intro effect member
  rcases messages effect member with ⟨ref, event, rfl⟩ | ⟨message, rfl⟩
  · rfl
  · rfl

/-- An effect that neither asks for an event nor counts an answer. -/
theorem Accounted.note {system : System} {all : List Effect} {effect : Effect}
    (accounted : Accounted system all) (noEvent : effect.event? = none)
    (uncounted : effect.counted? = none)
    (settled : ∀ recording fileName, effect = .removed recording fileName →
      Settled recording all) :
    Accounted system (all ++ [effect]) := by
  rcases accounted with ⟨kept, sent, past, once, known⟩
  have sentEq : sentRefs (all ++ [effect]) = sentRefs all := by
    simp [sentRefs, noEvent]
  have countedEq : countedRefs (all ++ [effect]) = countedRefs all := by
    simp [countedRefs, uncounted]
  refine ⟨⟨kept.settled.concat settled, ?_⟩, ?_, ?_, ?_, ?_⟩
  · intro recording reply member
    rcases List.mem_append.mp member with old | new
    · exact kept.own recording reply old
    · cases List.mem_singleton.mp new
      cases uncounted
  · rw [sentEq]
    exact sent
  · rw [sentEq]
    exact past
  · rw [countedEq]
    exact once
  · rw [countedEq, sentEq]
    exact known

/-- `deleteFile` keeps the accounts, at the head of its loop and after it. -/
theorem Accounted.deleteFile {system : System} {all : List Effect} {deletion : Deletion}
    (accounted : Accounted system all) (waits : Waits deletion all) :
    Sound (deleteFile system deletion).1 (all ++ (deleteFile system deletion).2) := by
  unfold NoiseDetection.deleteFile
  split
  · rcases accounted with ⟨kept, sent, past, once, known⟩
    simp only [List.append_nil]
    refine ⟨⟨kept, sent, past, once, known⟩, ?_⟩
    intro other equal
    obtain rfl := Option.some.inj equal
    exact waits
  · next done =>
      have settled := accounted.settled waits (not_not.mp done)
      generalize (if deletion.hasMessage = true then _ else _ : Message) = message
      have told : Accounted system (all ++ [.sent message]) := by
        apply accounted.note rfl rfl
        intro recording fileName equal
        cases equal
      have removed : Accounted system
          (all ++ [.sent message] ++ [.removed deletion.recording deletion.fileName]) := by
        apply told.note rfl rfl
        intro recording fileName equal
        cases equal
        exact settled.mono rfl
      rcases removed with ⟨kept, sent, past, once, known⟩
      rw [List.append_cons]
      refine ⟨⟨kept, sent, past, once, known⟩, ?_⟩
      intro other equal
      cases equal

/-! ## Runs -/

section Runs

variable {rules : List RuleInfo} {system : System} {all : List Effect}

variable (rules) in
theorem sound_start : Sound (machine rules).start [] where
  kept := ⟨Throughout.nil, by simp⟩
  sent := List.nodup_nil
  past := by simp [sentRefs]
  once := List.nodup_nil
  known := by simp [countedRefs, machine]
  waits := by simp [machine]

/-- No event of the next recording was sent before. -/
theorem Accounted.unheard (accounted : Accounted system all) {effects : List Effect}
    (fresh : ∀ ref ∈ sentRefs effects, ref.recording = system.recordings) :
    ∀ ref ∈ sentRefs effects, ref ∉ sentRefs all := by
  intro ref member old
  have earlier := accounted.past ref old
  rw [fresh ref member] at earlier
  exact lt_irrefl _ earlier

/-- The events of the next recording. -/
theorem Accounted.hear (accounted : Accounted system all) {effects : List Effect}
    (sends : ∀ effect ∈ effects,
      (∃ ref event, effect = .sentEvent ref event) ∨ ∃ message, effect = .sent message)
    (distinct : (sentRefs effects).Nodup)
    (fresh : ∀ ref ∈ sentRefs effects, ref.recording = system.recordings)
    {recordings : Nat} (deletion : Option Deletion) (later : system.recordings < recordings) :
    Accounted { system with
      recordings := recordings
      deletion := deletion
      unanswered := system.unanswered ++ effects.filterMap Effect.event? } (all ++ effects) := by
  have unknown := accounted.unheard fresh
  have refs : countedRefs (all ++ effects) ++ system.queue.map Reply.ref ++
      (system.unanswered ++ effects.filterMap Effect.event?).map Prod.fst =
      (countedRefs all ++ system.queue.map Reply.ref ++ system.unanswered.map Prod.fst) ++
        sentRefs effects := by
    rw [countedRefs_append, countedRefs_of_sends sends, List.append_nil, List.map_append, sentRefs]
    simp
  refine ⟨accounted.kept.append_sends sends, ?_, ?_, ?_, ?_⟩
  · rw [sentRefs_append, List.nodup_append]
    refine ⟨accounted.sent, distinct, ?_⟩
    rintro old oldMember new newMember rfl
    exact unknown old newMember oldMember
  · rw [sentRefs_append]
    intro ref member
    rcases List.mem_append.mp member with old | new
    · exact (accounted.past ref old).trans later
    · rw [fresh ref new]
      exact later
  · rw [refs, List.nodup_append]
    refine ⟨accounted.once, distinct, ?_⟩
    rintro old oldMember new newMember rfl
    exact unknown old newMember (accounted.known old oldMember)
  · rw [refs, sentRefs_append]
    intro ref member
    rcases List.mem_append.mp member with old | new
    · exact List.mem_append_left _ (accounted.known ref old)
    · exact List.mem_append_right _ new

/-- A call that comes with the events of the next recording waits for all of them. -/
theorem Accounted.waits_next (accounted : Accounted system all) {effects : List Effect}
    {deletion : Deletion} (next : deletion.recording = system.recordings)
    (bound : (sentRefs effects).length ≤ deletion.nrOfRules) : Waits deletion (all ++ effects) := by
  right
  have unreferenced : ofRecording deletion.recording (sentRefs all) = [] := by
    rw [ofRecording, List.filter_eq_nil_iff]
    intro ref member
    rw [next]
    simpa using (accounted.past ref member).ne
  rw [sentRefs_append, ofRecording_append, unreferenced, List.nil_append]
  calc (ofRecording deletion.recording (sentRefs effects)).length
      ≤ (sentRefs effects).length := List.length_filter_le _ _
    _ ≤ deletion.nrOfRules := bound
    _ ≤ _ := Nat.le_add_left _ _

theorem Sound.round (sound : Sound system all) (round : Round) :
    Sound (step rules system (.round round)).1
      (all ++ (step rules system (.round round)).2) := by
  cases waiting : system.deletion with
  | some deletion => simpa [step, waiting] using sound
  | none =>
      rcases sound with ⟨accounted, waits⟩
      have sends := ruleLoop_sends system.recordings round .none rules
      have silent := @ruleLoop_silent system.recordings round .none rules
      rcases ruleLoop_refs system.recordings round .none rules with ⟨distinct, fresh, bound⟩
      simp only [step, waiting]
      generalize ruleLoop system.recordings round .none rules = result
        at sends silent distinct fresh bound ⊢
      rcases result with ⟨detection, effects⟩
      simp only at sends silent distinct fresh bound ⊢
      have heard := @Accounted.hear system all accounted effects sends distinct
        (fun ref member => (fresh ref member).1) (system.recordings + 1) none (Nat.lt_succ_self _)
      by_cases generated : detection.fileGenerated = true
      · rw [if_pos generated]
        by_cases launched : round.launched = true
        · rw [if_pos launched]
          have call : Waits ⟨system.recordings, detection.filePath, detection.numOfRules, false⟩
              (all ++ effects) :=
            accounted.waits_next rfl ((Nat.le_add_left _ _).trans bound)
          have next := heard.deleteFile call
          rw [List.append_assoc] at next
          exact next
        · rw [if_neg launched]
          refine ⟨heard, ?_⟩
          intro deletion equal
          cases equal
      · rw [if_neg generated]
        have noEffects := silent (by simpa using generated)
        subst noEffects
        simp only [List.append_nil, List.filterMap_nil]
        rcases accounted with ⟨kept, sent, past, once, known⟩
        refine ⟨⟨kept, sent, past, once, known⟩, ?_⟩
        intro deletion equal
        cases equal

theorem Sound.answer (sound : Sound system all) (ref : EventRef) (accepted : Bool)
    (eventId : EventID) :
    Sound (step rules system (.answer ref accepted eventId)).1
      (all ++ (step rules system (.answer ref accepted eventId)).2) := by
  cases search : system.unanswered.find? (·.1 = ref) with
  | none => simpa [step, search] using sound
  | some entry =>
      rcases sound with ⟨⟨kept, sent, past, once, known⟩, waits⟩
      rcases List.find?_eq_some_iff_append.mp search with ⟨found, passed, left, split, first⟩
      have erased : system.unanswered.eraseP (·.1 = ref) = passed ++ left := by
        rw [split, List.eraseP_append_right _ (by simpa using first)]
        simp only [found, List.eraseP_cons_of_pos]
      have refEq : entry.1 = ref := of_decide_eq_true found
      simp only [step, search, erased, List.append_nil]
      have moved : (countedRefs all ++ (system.queue.map Reply.ref ++ [ref]) ++
          (passed ++ left).map Prod.fst).Perm
          (countedRefs all ++ system.queue.map Reply.ref ++ system.unanswered.map Prod.fst) := by
        rw [split, List.map_append, List.map_append, List.map_cons, refEq]
        simp only [List.append_assoc, List.cons_append, List.nil_append]
        apply List.Perm.append_left
        apply List.Perm.append_left
        exact List.perm_middle.symm
      refine ⟨⟨kept, sent, past, ?_, ?_⟩, waits⟩
      · rw [List.map_append]
        exact moved.symm.nodup once
      · rw [List.map_append]
        intro other member
        exact known other (moved.subset member)

theorem Sound.receive (sound : Sound system all) (own : FindsOwn system .receive) :
    Sound (step rules system .receive).1 (all ++ (step rules system .receive).2) := by
  cases waiting : system.deletion with
  | none => simpa [step, waiting] using sound
  | some deletion =>
      cases queued : system.queue with
      | nil => simpa [step, waiting, queued] using sound
      | cons reply left =>
          rcases sound with ⟨⟨kept, sent, past, once, known⟩, waits⟩
          have recordingEq := own deletion reply left waiting queued
          have sentEq : sentRefs (all ++ [.counted deletion.recording reply]) =
              sentRefs all := by
            simp [sentRefs, Effect.event?]
          have countedEq : countedRefs (all ++ [.counted deletion.recording reply]) =
              countedRefs all ++ [reply.ref] := by
            simp [countedRefs, Effect.counted?]
          rw [queued] at once known
          simp only [step, waiting, queued]
          rw [List.append_cons]
          apply Accounted.deleteFile
          · refine ⟨⟨?_, ?_⟩, ?_, ?_, ?_, ?_⟩
            · apply kept.settled.concat
              intro recording fileName equal
              cases equal
            · intro recording other member
              rcases List.mem_append.mp member with old | new
              · exact kept.own recording other old
              · cases List.mem_singleton.mp new
                exact recordingEq
            · rw [sentEq]
              exact sent
            · rw [sentEq]
              exact past
            · rw [countedEq]
              simpa using once
            · rw [countedEq, sentEq]
              simpa using known
          · rcases waits deletion waiting with timedOut | enough
            · exact Or.inl (List.mem_append_left _ timedOut)
            · right
              change (ofRecording deletion.recording (sentRefs _)).length ≤
                (ofRecording deletion.recording (countedRefs _)).length + (deletion.nrOfRules - 1)
              rw [sentEq, countedEq, ofRecording_append, List.length_append]
              have one : (ofRecording deletion.recording [reply.ref]).length = 1 := by
                simp [ofRecording, recordingEq]
              omega

theorem Sound.timeout (sound : Sound system all) :
    Sound (step rules system .timeout).1 (all ++ (step rules system .timeout).2) := by
  cases waiting : system.deletion with
  | none => simpa [step, waiting] using sound
  | some deletion =>
      cases queued : system.queue with
      | cons reply left => simpa [step, waiting, queued] using sound
      | nil =>
          have timedOut : Accounted system (all ++ [.timedOut deletion.recording]) := by
            apply sound.toAccounted.note rfl rfl
            intro recording fileName equal
            cases equal
          rcases timedOut with ⟨kept, sent, past, once, known⟩
          simp only [step, waiting, queued]
          rw [List.append_cons]
          apply Accounted.deleteFile
          · exact ⟨kept, sent, past, once, known⟩
          · exact Or.inl (by simp [Deletion.receive])

theorem Sound.step (sound : Sound system all) {op : Op} (own : FindsOwn system op) :
    Sound (step rules system op).1 (all ++ (step rules system op).2) := by
  cases op with
  | round round => exact sound.round round
  | answer ref accepted eventId => exact sound.answer ref accepted eventId
  | receive => exact sound.receive own
  | timeout => exact sound.timeout

theorem effects_concat (ops : List Op) (op : Op) :
    effects rules (ops ++ [op]) =
      effects rules ops ++ (NoiseDetection.step rules ((machine rules).run ops).state op).2 := by
  simp [effects, Machine.extend_trace, Function.comp_def, machine]

theorem sound_run {ops : List Op} (own : FindsOnlyOwn rules ops) :
    Sound ((machine rules).run ops).state (effects rules ops) := by
  induction ops using List.reverseRecOn with
  | nil => exact sound_start rules
  | append_singleton ops op ih =>
      rcases own.of_concat with ⟨earlier, now⟩
      rw [effects_concat, Machine.run_concat]
      exact (ih earlier).step now

variable (rules) in
/-- A message of another recording that is found is counted. -/
theorem FindsOwn.of_kept {op : Op} (own : ∀ recording reply,
    .counted recording reply ∈ (NoiseDetection.step rules system op).2 →
      reply.ref.recording = recording) : FindsOwn system op := by
  cases op with
  | receive =>
      intro deletion reply left waiting queued
      apply own deletion.recording reply
      simp [NoiseDetection.step, waiting, queued]
  | round => trivial
  | answer => trivial
  | timeout => trivial

/-- Every recording is kept until its own events are settled, and no answer counts
for another recording, if and only if no call of `deleteFile` finds an answer to
an event of another recording. -/
theorem recordings_kept_iff (rules : List RuleInfo) (ops : List Op) :
    Kept (effects rules ops) ↔ FindsOnlyOwn rules ops := by
  constructor
  · intro kept
    induction ops using List.reverseRecOn with
    | nil => exact Throughout.nil
    | append_singleton ops op ih =>
        rw [effects_concat] at kept
        refine Throughout.concat (ih ⟨kept.settled.of_append, ?_⟩) (FindsOwn.of_kept rules ?_)
        · intro recording reply member
          exact kept.own recording reply (List.mem_append_left _ member)
        · intro recording reply member
          exact kept.own recording reply (List.mem_append_right _ member)
  · intro own
    exact (sound_run own).kept

end Runs

/-! ## A late answer -/

/-- A rule that reports noise. -/
def noiseRule : RuleInfo where
  title := "noise".toList
  id := 0
  event := { module := moduleName, key := "noise_detection".toList, configuration := ∅ }
  action := { module := "module_sms".toList, key := "send".toList, configuration := ∅ }
  fireLimit := 0
  isDisabled := false

/-- A round with a noise. -/
def noise (time : String) : Op :=
  .round { loud := fun _ => true, time := time.toList, passes := fun _ => true, launched := true }

/-- The event of the first recording is answered after its timeout, when the
second recording waits. -/
def lateAnswer : List Op :=
  [noise "20160131T100001", .timeout, noise "20160131T100101", .answer ⟨0, 0⟩ true 7, .receive]

/-- The second recording is removed although its event is not answered and its
call has not timed out. -/
theorem recording_removed_early : ¬ Kept (effects [noiseRule] lateAnswer) := by
  intro kept
  let before := (effects [noiseRule] lateAnswer).dropLast
  have split : effects [noiseRule] lateAnswer =
      before ++ .removed 1 "/tmp/sentri/audio/noise20160131T100101.wav".toList :: [] := by
    decide +kernel
  rcases kept.settled before _ [] split 1 _ rfl with timedOut | answered
  · have waited : Effect.timedOut 1 ∉ before := by decide +kernel
    exact waited timedOut
  · have sent : Effect.sentEvent ⟨1, 0⟩ ⟨0,
        snprintf msgVarSize "audioFile=/tmp/sentri/audio/noise20160131T100101.wav".toList⟩ ∈
        before := by
      decide +kernel
    have unanswered : ⟨1, 0⟩ ∉ countedRefs before := by decide +kernel
    rcases answered _ _ sent rfl with ⟨reply, counted, refEq⟩
    exact unanswered (mem_countedRefs.mpr ⟨1, reply, counted, refEq⟩)

end Sentri.Modules.NoiseDetection
