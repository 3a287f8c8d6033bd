import Sentri.LibModule.ConfigLoader
import Sentri.Modules.Firebase.Module
import Sentri.Modules.Temperature.Decoding
import Sentri.Modules.Temperature.Polling
import Sentri.Number.Decimal

/-!
# Temperature alarms

The main loop of the temperature module: after its start-up it reads the sensor with each
poll, writes the temperature to the hook and compares it with the thresholds of its rules,
which it loads again every time.  A sensor that was read to its end, a number that is out
of range or a corrupt threshold end the loop.
-/

namespace Sentri.Modules.Temperature

open Sentri.LibModule Sentri.Number Sentri.Text Sentri.Transition

open Sentri.Modules.Firebase (stoi)

/-! ## Passes through the loop -/

/-- What the module asks of the library. -/
inductive Request where
  | setHeartbeatInterval (interval : Nat)
  | sendHeartbeat
  | log (severity : LogSeverity) (message : Str)
  | writeHook (data : Str)
  | sendEventMessage (ruleID : RuleID) (vars : Str)
  deriving DecidableEq

/-- Why the module does not go on. -/
inductive Ending where
  /-- `exit(EXIT_FAILURE)` -/
  | failure
  /-- An exception that nobody catches. -/
  | uncaught
  /-- A loop without end. -/
  | stuck
  deriving DecidableEq

/-- Some requests, after which the module may have ended. -/
structure Course where
  requests : List Request
  ending : Option Ending
  deriving DecidableEq

namespace Course

def ask (requests : List Request) : Course :=
  ⟨requests, none⟩

/-- Log a fatal error and exit. -/
def fatal (message : Str) : Course :=
  ⟨[.log .fatal message], some .failure⟩

/-- What is done next, unless the module has ended. -/
def andThen (first second : Course) : Course :=
  match first.ending with
  | none => ⟨first.requests ++ second.requests, second.ending⟩
  | some _ => first

@[simp]
theorem ask_andThen_ask (first second : List Request) :
    (ask first).andThen (ask second) = ask (first ++ second) :=
  rfl

end Course

/-- `MODULE_NAME` -/
def moduleName : Str :=
  "module_temperature".toList

/-! ## Start-up -/

/-- The polling interval of the configuration, or the message of the fatal error. -/
def readPollingInterval (config : StrMap) : Except Str Nat :=
  match config["polling_interval".toList]? with
  | some text =>
      match stoi text with
      | some interval =>
          if interval < 0 then .error "Invalid polling_interval in configuration!".toList
          else .ok interval.toNat
      | none => .error "Invalid polling_interval in configuration!".toList
  | none => .error "polling_interval in config not found!".toList

/-- What the module finds below the path of the bus. -/
inductive SensorFile where
  | missing
  | unreadable
  | readable
  deriving DecidableEq

/-- The variables of the main loop, and whether it has been left. -/
structure Monitor where
  pollingInterval : Nat
  loop : Loop
  sensor : Stream
  ending : Option Ending
  deriving DecidableEq

/-- What `start` does before the main loop, which is entered if there is no error. -/
def startUp (config : StrMap) (sensorFile : SensorFile) (loopBegin : Int) :
    Course × Option Monitor :=
  match readPollingInterval config with
  | .error message => (Course.fatal message, none)
  | .ok pollingInterval =>
      let announced := Course.ask [.setHeartbeatInterval ((heartbeatInterval + 2) * 1000)]
      match sensorFile with
      | .missing => (announced.andThen (Course.fatal "Couldn't find sensor!".toList), none)
      | .unreadable =>
          (announced.andThen (Course.fatal "Couldn't open sensor for reading!".toList), none)
      | .readable => (announced, some {
          pollingInterval := pollingInterval
          loop := ⟨loopBegin, pollingInterval, true⟩
          sensor := opened
          ending := none })

/-! ## Rules -/

/-- Compare with the threshold of a rule, if it has one, and send an event. -/
def checkThreshold (field : Str) (triggers : Double → Bool) (temperature : Double)
    (rule : RuleInfo) : Course :=
  match rule.event.configuration[field]? with
  | some text =>
      match stod text with
      | .ok threshold =>
          if triggers threshold then
            Course.ask [.sendEventMessage rule.id ("temp=".toList ++ toText temperature)]
          else
            Course.ask []
      | .error .invalidArgument =>
          Course.fatal ("Invalid value for ".toList ++ field ++ ", rule corrupt!".toList)
      | .error .outOfRange => ⟨[], some .uncaught⟩
  | none => Course.ask []

def checkRule (temperature : Double) (rule : RuleInfo) : Course :=
  if rule.isDisabled then
    Course.ask []
  else if rule.event.key = "temp_exceeded".toList then
    checkThreshold "max_temp".toList (fun threshold => threshold.le temperature) temperature rule
  else if rule.event.key = "temp_undershot".toList then
    checkThreshold "min_temp".toList (fun threshold => temperature.lt threshold) temperature rule
  else
    Course.ask [.log .error "Unknown event!".toList]

def checkRules (temperature : Double) : List RuleInfo → Course
  | [] => Course.ask []
  | rule :: rules => (checkRule temperature rule).andThen (checkRules temperature rules)

/-- `writeHookTemp` -/
def hookTemp (temperature : Str) : Str :=
  "\x7b \"temperature\": ".toList ++ temperature ++ " \x7d\n".toList

/-- What follows a reading.  The rules are loaded from their file. -/
def checkTemperature (loader : ConfigLoader) (temperature : Double) : Course :=
  if temperature = .finite absoluteZero then
    Course.ask []
  else
    (Course.ask [.writeHook (hookTemp (toText temperature))]).andThen
      (match loader.getRules moduleName with
      | .ok rules => checkRules temperature rules
      | .error message => Course.fatal message)

/-! ## The main loop -/

/-- What an iteration finds: the content of the sensor's file with the memory behind the
buffer, the rules file, and the seconds that it takes before it sleeps. -/
structure Surroundings where
  content : Str
  stray : Str
  loader : ConfigLoader
  loopTime : Nat

/-- A poll.  With this fuel a reading is either over or never returns. -/
def poll (surroundings : Surroundings) (sensor : Stream) : Course × Stream :=
  match readTemperature surroundings.content surroundings.stray
    (surroundings.content.length + 3) sensor with
  | none => (⟨[], some .stuck⟩, sensor)
  | some (.error _) => (⟨[], some .uncaught⟩, sensor)
  | some (.ok reading) =>
      ((Course.ask (reading.logged.map (fun entry => .log entry.1 entry.2) ++
          [.log .trace (toText reading.temperature)])).andThen
        (checkTemperature surroundings.loader reading.temperature), reading.sensor)

/-- An iteration, which gives its requests. -/
def Monitor.step (monitor : Monitor) (surroundings : Surroundings) :
    Monitor × List (List Request) :=
  match monitor.ending with
  | some _ => (monitor, [])
  | none =>
      let (course, sensor) :=
        if monitor.loop.poll then poll surroundings monitor.sensor
        else (Course.ask [], monitor.sensor)
      let loop := if course.ending.isSome then monitor.loop
        else (monitor.loop.step monitor.pollingInterval surroundings.loopTime).1
      ({ monitor with loop := loop, sensor := sensor, ending := course.ending },
        [.sendHeartbeat :: course.requests])

/-- The main loop after a start-up. -/
def monitoring (start : Monitor) : Machine Monitor Surroundings (List Request) :=
  ⟨start, Monitor.step⟩

/-- The requests of the iterations. -/
def requests (start : Monitor) (run : List Surroundings) : List (List Request) :=
  ((monitoring start).run run).trace.map Prod.snd

/-! ## Readings that return -/

/-- A call that does not return with this fuel never does. -/
theorem reading_stuck {content stray : Str} {sensor : Stream}
    (stuck : readTemperature content stray (content.length + 3) sensor = none) (fuel : Nat) :
    readTemperature content stray fuel sensor = none := by
  cases alive : sensor.failbit with
  | true => exact readTemperature_failed content stray fuel alive
  | false =>
      have start : (Reading.start sensor).sensor = ⟨0, false, false⟩ := by
        rw [Reading.start, Stream.seekg, if_neg (by simp [alive])]
      rcases Reading.loop_spec content stray start rfl
        (rfl : content.drop 0 = content)
        (Nat.lt_succ_self _ : content.length + 2 < content.length + 3) with ⟨result, looped, _⟩
      rw [readTemperature, looped] at stuck
      cases stuck

theorem reading_enough {content stray : Str} {sensor : Stream} {fuel : Nat}
    {result : Except StodError Reading}
    (called : readTemperature content stray fuel sensor = some result) :
    readTemperature content stray (content.length + 3) sensor = some result := by
  cases enough : readTemperature content stray (content.length + 3) sensor with
  | none =>
      rw [reading_stuck enough fuel] at called
      cases called
  | some other => rw [readTemperature_unique enough called]

namespace Reading

/-- A message is only logged when the temperature is left alone. -/
theorem take_logged {content stray : Str} {reading final : Reading} {pos : Nat}
    (silent : reading.logged = []) (taken : reading.take content stray pos = .ok final) :
    final.found = true ∧ (final.logged = [] ∨ final.temperature = reading.temperature) := by
  unfold take at taken
  rcases reads : (reading.sensor.seekg (reading.absPos + pos + temperaturePrefix.length +
    1)).read content temperatureWith with ⟨sensor, chars⟩
  simp only [reads] at taken
  cases converting : convert chars stray with
  | ok temperature =>
      rw [converting] at taken
      cases taken
      exact ⟨rfl, Or.inl silent⟩
  | error thrown =>
      rw [converting] at taken
      cases thrown with
      | invalidArgument =>
          cases taken
          exact ⟨rfl, Or.inr rfl⟩
      | outOfRange => cases taken

theorem loop_eq_of_found {content stray : Str} {fuel : Nat} {reading result : Reading}
    (found : reading.found = true)
    (looped : reading.loop content stray fuel = some (.ok result)) : result = reading := by
  cases fuel with
  | zero => cases looped
  | succ fuel =>
      rw [loop_over fuel (Or.inr found)] at looped
      cases looped
      rfl

theorem loop_logged {content stray : Str} {fuel : Nat} {reading result : Reading}
    (searching : reading.found = false) (silent : reading.logged = [])
    (looped : reading.loop content stray fuel = some (.ok result)) :
    result.logged = [] ∨ result.temperature = reading.temperature := by
  induction fuel generalizing reading with
  | zero => cases looped
  | succ fuel ih =>
      cases atEnd : reading.sensor.eofbit with
      | true =>
          rw [loop_over fuel (Or.inl atEnd)] at looped
          cases looped
          exact Or.inl silent
      | false =>
          rw [loop_searching fuel atEnd searching] at looped
          rcases read : reading.sensor.getline content reading.line with ⟨sensor, line⟩
          cases search : find temperaturePrefix line with
          | none =>
              rw [round_missing read search] at looped
              dsimp only at looped
              exact @ih { reading with
                sensor := sensor
                line := line
                absPos := reading.absPos + line.length } searching silent looped
          | some pos =>
              rw [round_found read search] at looped
              cases taken : ({ reading with sensor := sensor, line := line } : Reading).take
                content stray pos with
              | error thrown =>
                  rw [taken] at looped
                  cases looped
              | ok final =>
                  rw [taken] at looped
                  dsimp only at looped
                  rcases @take_logged content stray { reading with sensor := sensor, line := line }
                    final pos silent taken with ⟨found, kept⟩
                  rw [loop_eq_of_found found looped]
                  exact kept

end Reading

/-! ## What the sensor shows -/

/-- A file with a temperature in thousandths of a degree.  Its digits fit, and there are
five characters to read. -/
inductive Shows : Str → Int → Prop where
  | intro {first before after : Str} {n : Int} (firstLine : '\n' ∉ first)
      (noPrefix : find temperaturePrefix first = none) (secondLine : '\n' ∉ before)
      (firstOccurrence :
        find temperaturePrefix (before ++ temperaturePrefix) = some before.length)
      (fits : Fits n) (long : n = 0 → 3 ≤ after.length) :
      Shows (sensorText first before n after) n

theorem length_decimal {n : Int} (fits : Fits n) (nonzero : n ≠ 0) : (decimal n).length = 5 := by
  rcases fits with zero | ⟨lower, upper⟩ | ⟨lower, upper⟩
  · exact absurd zero nonzero
  · have digits : (toDecimal n.natAbs).length = 4 + 1 :=
      (length_toDecimal_eq_iff (by norm_num)).mpr (by omega)
    rw [decimal, decide_eq_false (by omega)]
    exact digits
  · have digits : (toDecimal n.natAbs).length = 3 + 1 :=
      (length_toDecimal_eq_iff (by norm_num)).mpr (by omega)
    rw [decimal, decide_eq_true (by omega)]
    exact congrArg (· + 1) digits

namespace Shows

variable {content : Str} {n : Int}

theorem fits (shown : Shows content n) : Fits n := by
  cases shown
  assumption

theorem intact (shown : Shows content n) : Intact content := by
  cases shown with
  | @intro first before after n firstLine noPrefix secondLine firstOccurrence fits long =>
      rcases @offset_sensorText first before n after firstLine noPrefix secondLine
        firstOccurrence with ⟨position, found, left⟩
      have length := congrArg List.length left
      rw [List.length_drop, List.length_append, List.length_cons] at length
      have five : temperatureWith = 5 := rfl
      rw [Intact, found]
      change position + temperatureWith ≤ _
      by_cases zero : n = 0
      · have digit : (decimal n).length = 1 := by
          rw [zero]
          rfl
        have behind := long zero
        omega
      · have digits := length_decimal fits zero
        omega

end Shows

/-! ## Temperatures as doubles -/

section

variable {n : Int}

theorem Fits.precise (fits : Fits n) : Precise ((n : Rat) / 1000) := by
  have bounds : -9999 ≤ n ∧ n ≤ 99999 := by
    rcases fits with zero | five | four <;> omega
  have lower : (-9999 : Rat) ≤ n := by exact_mod_cast bounds.1
  have upper : (n : Rat) ≤ 99999 := by exact_mod_cast bounds.2
  constructor
  · refine ⟨n * 10 ^ 6, ?_⟩
    push_cast
    ring
  · rw [abs_le]
    constructor <;> linarith

theorem Fits.warm (fits : Fits n) :
    (Double.finite (roundToDouble (n / 1000))) ≠ .finite absoluteZero := by
  have bound : -9999 ≤ n := by
    rcases fits with zero | five | four <;> omega
  have lower : (-9999 : Rat) ≤ n := by exact_mod_cast bound
  have coldest : Precise (-274) := by
    constructor
    · exact ⟨-274 * 10 ^ 9, by norm_num⟩
    · norm_num
  have itself : roundToDouble (-274) = -274 := by decide +kernel
  have above := (coldest.roundToDouble_lt_iff fits.precise).mpr (by linarith)
  rw [itself] at above
  intro equal
  rw [Double.finite.inj equal, absoluteZero] at above
  exact absurd above (lt_irrefl _)

/-- A number of thousandths with six digits after the point. -/
def degrees (n : Int) : Str :=
  millionths (n < 0) (1000 * n.natAbs)

theorem Fits.toText (fits : Fits n) :
    toText (.finite (roundToDouble (n / 1000))) = degrees n := by
  have scaled : (n : Rat) / 1000 = ((1000 * n : Int) : Rat) / 10 ^ 6 := by
    push_cast
    ring
  have precise := fits.precise
  rw [scaled] at precise ⊢
  have sign : 1000 * n < 0 ↔ n < 0 := by omega
  rw [toText_roundToDouble precise, degrees, Int.natAbs_mul]
  simp only [sign]
  rfl

end

/-- A call returns the double next to the temperature, and the next call will return. -/
theorem Shows.reads {content : Str} {n : Int} (shown : Shows content n) {sensor : Stream}
    (alive : sensor.failbit = false) :
    ∃ reading, readTemperature content [] (content.length + 3) sensor = some (.ok reading) ∧
      reading.temperature = .finite (roundToDouble (n / 1000)) ∧ reading.logged = [] ∧
      reading.sensor.failbit = false := by
  have intact := shown.intact
  have warm := shown.fits.warm
  have decodes : Decodes content n sensor := by
    cases shown with
    | intro firstLine noPrefix secondLine firstOccurrence fits _ =>
        exact (decodes_iff_fits firstLine noPrefix secondLine firstOccurrence alive).mpr fits
  rcases decodes with ⟨fuel, reading, called, right⟩
  rcases call_cases content [] alive with ⟨_, never⟩ | ⟨more, other, _, otherCalled, whole⟩
  · exact absurd called (never fuel reading)
  · cases readTemperature_unique called otherCalled
    refine ⟨reading, reading_enough called, right, ?_, whole.mpr intact⟩
    rcases Reading.loop_logged rfl rfl called with silent | cold
    · exact silent
    · rw [right] at cold
      exact absurd cold warm

/-! ## Rules with thresholds -/

/-- The number that the threshold of a rule stands for. -/
def threshold (field : Str) (rule : RuleInfo) : Option Rat :=
  match (rule.event.configuration[field]?).bind fun text => strtod (cStr text) with
  | some (.finite value) => some value
  | _ => none

/-- Does a temperature in thousandths of a degree trigger a rule? -/
def triggers (n : Int) (rule : RuleInfo) : Bool :=
  if rule.isDisabled then
    false
  else if rule.event.key = "temp_exceeded".toList then
    (threshold "max_temp".toList rule).any fun max => max ≤ (n : Rat) / 1000
  else if rule.event.key = "temp_undershot".toList then
    (threshold "min_temp".toList rule).any fun min => (n : Rat) / 1000 < min
  else
    false

theorem enabled_of_triggers {n : Int} {rule : RuleInfo} (triggered : triggers n rule = true) :
    rule.isDisabled = false := by
  cases disabled : rule.isDisabled with
  | false => rfl
  | true =>
      rw [triggers, if_pos disabled] at triggered
      cases triggered

/-- The threshold, if there is one, is a number of at most nine places. -/
def Plain (field : Str) (rule : RuleInfo) : Prop :=
  rule.event.configuration[field]? = none ∨ ∃ value, threshold field rule = some value ∧
    Precise value

/-- A rule with an event of the module, unless it is disabled. -/
def Sane (rule : RuleInfo) : Prop :=
  rule.isDisabled = false →
    rule.event.key = "temp_exceeded".toList ∧ Plain "max_temp".toList rule ∨
    rule.event.key = "temp_undershot".toList ∧ Plain "min_temp".toList rule

/-- The event of a rule. -/
def eventOf (n : Int) (rule : RuleInfo) : Request :=
  .sendEventMessage rule.id ("temp=".toList ++ degrees n)

theorem checkThreshold_of_plain {field : Str} {rule : RuleInfo} (plain : Plain field rule)
    {exceeds : Double → Bool} {holds : Rat → Bool}
    (agree : ∀ value, Precise value → exceeds (.finite (roundToDouble value)) = holds value)
    (temperature : Double) :
    checkThreshold field exceeds temperature rule = Course.ask
      (if (threshold field rule).any holds then
        [.sendEventMessage rule.id ("temp=".toList ++ toText temperature)] else []) := by
  rcases plain with absent | ⟨value, found, precise⟩
  · have unset : threshold field rule = none := by
      rw [threshold, absent]
      rfl
    rw [checkThreshold, absent, unset]
    rfl
  · cases present : rule.event.configuration[field]? with
    | none =>
        rw [threshold, present] at found
        cases found
    | some text =>
        have read : strtod (cStr text) = some (.finite value) := by
          rw [threshold, present, Option.bind_some] at found
          split at found
          case h_1 value' read =>
              cases found
              exact read
          case h_2 => cases found
        rw [checkThreshold, present, found, Option.any_some]
        simp only [stod_of_precise read precise, agree value precise]
        split <;> rfl

section

variable {n : Int} {rule : RuleInfo} {rules : List RuleInfo}

/-- A double is compared with a threshold as the numbers are. -/
theorem checkRule_of_sane (fits : Fits n) (sane : Sane rule) :
    checkRule (.finite (roundToDouble (n / 1000))) rule =
      Course.ask (if triggers n rule then [eventOf n rule] else []) := by
  unfold checkRule triggers
  cases enabled : rule.isDisabled with
  | true => rfl
  | false =>
      rw [if_neg Bool.false_ne_true, if_neg Bool.false_ne_true, eventOf, ← fits.toText]
      rcases sane enabled with ⟨key, plain⟩ | ⟨key, plain⟩
      · rw [if_pos key, if_pos key]
        apply checkThreshold_of_plain plain
        intro value precise
        exact decide_eq_decide.mpr (precise.roundToDouble_le_iff fits.precise)
      · have other : rule.event.key ≠ "temp_exceeded".toList := by
          rw [key]
          decide
        rw [if_neg other, if_neg other, if_pos key, if_pos key]
        apply checkThreshold_of_plain plain
        intro value precise
        exact decide_eq_decide.mpr (fits.precise.roundToDouble_lt_iff precise)

/-- The rules that are triggered send their events in their order. -/
theorem checkRules_of_sane (fits : Fits n) (sane : ∀ rule ∈ rules, Sane rule) :
    checkRules (.finite (roundToDouble (n / 1000))) rules =
      Course.ask ((rules.filter (triggers n)).map (eventOf n)) := by
  induction rules with
  | nil => rfl
  | cons rule rules ih =>
      rw [checkRules, checkRule_of_sane fits (sane rule List.mem_cons_self),
        ih fun other member => sane other (List.mem_cons_of_mem _ member),
        Course.ask_andThen_ask, List.filter_cons]
      split <;> rfl

end

/-! ## Regular polls -/

/-- A poll that finds a temperature, nothing behind the buffer, and rules that it can
check. -/
structure Regular (surroundings : Surroundings) (n : Int) (rules : List RuleInfo) : Prop where
  shown : Shows surroundings.content n
  noStray : surroundings.stray = []
  loaded : surroundings.loader.getRules moduleName = .ok rules
  sane : ∀ rule ∈ rules, Sane rule

/-- What is asked for in a poll. -/
def pollRequests (n : Int) (rules : List RuleInfo) : List Request :=
  [.log .trace (degrees n), .writeHook (hookTemp (degrees n))] ++
    (rules.filter (triggers n)).map (eventOf n)

theorem Regular.polls {surroundings : Surroundings} {n : Int} {rules : List RuleInfo}
    (regular : Regular surroundings n rules) {sensor : Stream} (alive : sensor.failbit = false) :
    ∃ next : Stream, poll surroundings sensor = (Course.ask (pollRequests n rules), next) ∧
      next.failbit = false := by
  rcases regular.shown.reads alive with ⟨reading, called, right, silent, next⟩
  refine ⟨reading.sensor, ?_, next⟩
  have fits := regular.shown.fits
  have checked : checkTemperature surroundings.loader (.finite (roundToDouble (n / 1000))) =
      Course.ask (.writeHook (hookTemp (degrees n)) ::
        (rules.filter (triggers n)).map (eventOf n)) := by
    rw [checkTemperature, if_neg fits.warm, regular.loaded, fits.toText]
    dsimp only
    rw [checkRules_of_sane fits regular.sane]
    rfl
  unfold poll
  simp only [regular.noStray, called, silent, checked, right, fits.toText]
  rfl

/-! ## Runs -/

/-- A configuration with a polling interval and a sensor start the main loop. -/
theorem startUp_of_configured {config : StrMap} {pollingInterval : Nat}
    (configured : readPollingInterval config = .ok pollingInterval) (loopBegin : Int) :
    startUp config .readable loopBegin = (Course.ask [.setHeartbeatInterval 12000],
      some ⟨pollingInterval, ⟨loopBegin, pollingInterval, true⟩, opened, none⟩) := by
  rw [startUp, configured]
  rfl

/-- The monitor of a start-up. -/
def started (pollingInterval : Nat) (loopBegin : Int) : Monitor :=
  ⟨pollingInterval, ⟨loopBegin, pollingInterval, true⟩, opened, none⟩

section

variable {pollingInterval : Nat} {loopBegin : Int} {run : List Surroundings}

/-- Every poll is regular. -/
def AllRegular (pollingInterval : Nat) (run : List Surroundings) : Prop :=
  ∀ i surroundings, run[i]? = some surroundings → rounds pollingInterval ∣ i →
    ∃ n rules, Regular surroundings n rules

/-- Where the monitor stands as long as all polls are regular: in the main loop, which
keeps its times whatever the module does besides. -/
structure Attending (pollingInterval : Nat) (loopBegin : Int) (run : List Surroundings)
    (monitor : Monitor) : Prop where
  going : monitor.ending = none
  interval : monitor.pollingInterval = pollingInterval
  alive : monitor.sensor.failbit = false
  loop_eq : monitor.loop =
    ((mainLoop pollingInterval loopBegin).run (run.map Surroundings.loopTime)).state

theorem AllRegular.of_prefix {before : List Surroundings}
    (regular : AllRegular pollingInterval run) (inside : before <+: run) :
    AllRegular pollingInterval before := by
  intro i surroundings present polled
  rcases List.getElem?_eq_some_iff.mp present with ⟨bound, rfl⟩
  exact regular i _ (List.prefix_iff_getElem?.mp inside i bound) polled

/-- What is asked for in the iteration after a run. -/
theorem Attending.step {monitor : Monitor} {surroundings : Surroundings}
    (attending : Attending pollingInterval loopBegin run monitor)
    (regular : monitor.loop.poll = true → ∃ n rules, Regular surroundings n rules) :
    Attending pollingInterval loopBegin (run ++ [surroundings]) (monitor.step surroundings).1 ∧
      (monitor.loop.poll = false → (monitor.step surroundings).2 = [[.sendHeartbeat]]) ∧
      (monitor.loop.poll = true → ∀ n rules, Regular surroundings n rules →
        (monitor.step surroundings).2 = [.sendHeartbeat :: pollRequests n rules]) := by
  rcases attending with ⟨going, interval, alive, loop_eq⟩
  have next : (monitor.loop.step pollingInterval surroundings.loopTime).1 =
      ((mainLoop pollingInterval loopBegin).run
        ((run ++ [surroundings]).map Surroundings.loopTime)).state := by
    rw [List.map_append, List.map_singleton, Machine.run_concat, Machine.extend_state, loop_eq]
    rfl
  cases polled : monitor.loop.poll with
  | false =>
      have stepped : monitor.step surroundings =
          ({ monitor with
            loop := (monitor.loop.step pollingInterval surroundings.loopTime).1
            ending := none }, [[.sendHeartbeat]]) := by
        rw [Monitor.step, going]
        simp only [polled, Bool.false_eq_true, if_false, interval]
        rfl
      rw [stepped]
      refine ⟨⟨rfl, interval, alive, next⟩, fun _ => rfl, ?_⟩
      intro on
      cases on
  | true =>
      rcases regular polled with ⟨n, rules, regular⟩
      rcases regular.polls alive with ⟨sensor, asked, readable⟩
      have stepped : monitor.step surroundings =
          ({ monitor with
            loop := (monitor.loop.step pollingInterval surroundings.loopTime).1
            sensor := sensor
            ending := none }, [.sendHeartbeat :: pollRequests n rules]) := by
        rw [Monitor.step, going]
        simp only [polled, if_true, asked, interval]
        rfl
      refine ⟨?_, ?_, ?_⟩
      · rw [stepped]
        exact ⟨rfl, interval, readable, next⟩
      · intro off
        cases off
      · intro _ other others another
        rcases another.polls alive with ⟨sensor', asked', _⟩
        rw [asked] at asked'
        rw [stepped]
        have same := congrArg (fun result => result.1.requests) asked'
        exact congrArg (fun requests => [Request.sendHeartbeat :: requests]) same

/-- The run lemma: the monitor attends to its polls as long as they are regular. -/
theorem attending_run (positive : 1 ≤ pollingInterval)
    (regular : AllRegular pollingInterval run) :
    Attending pollingInterval loopBegin run
        ((monitoring (started pollingInterval loopBegin)).run run).state ∧
      (((monitoring (started pollingInterval loopBegin)).run run).state.loop.poll = true ↔
        rounds pollingInterval ∣ run.length) := by
  have attending : Attending pollingInterval loopBegin run
      ((monitoring (started pollingInterval loopBegin)).run run).state := by
    induction run using List.reverseRecOn with
    | nil => exact ⟨rfl, rfl, rfl, rfl⟩
    | append_singleton run last ih =>
        have attending := ih (regular.of_prefix (List.prefix_append run [last]))
        have counted := (counted_run positive loopBegin (run.map Surroundings.loopTime)).1
        rw [← attending.loop_eq, List.length_map] at counted
        rw [Machine.run_concat, Machine.extend_state]
        apply (attending.step _).1
        intro polled
        have multiple := counted.poll_iff.mp polled
        exact regular run.length last (by simp) (Nat.dvd_of_mod_eq_zero multiple)
  have counted := (counted_run positive loopBegin (run.map Surroundings.loopTime)).1
  rw [← attending.loop_eq, List.length_map] at counted
  rw [Nat.dvd_iff_mod_eq_zero]
  exact ⟨attending, counted.poll_iff⟩

/-- What is asked for in iteration `i`. -/
structure Expected (pollingInterval i : Nat) (surroundings : Surroundings) (asked : List Request) :
    Prop where
  between : ¬ rounds pollingInterval ∣ i → asked = [.sendHeartbeat]
  polled : rounds pollingInterval ∣ i → ∀ n rules, Regular surroundings n rules →
    asked = .sendHeartbeat :: pollRequests n rules

/-- The iteration after a run. -/
theorem expected_step (loopBegin : Int) (positive : 1 ≤ pollingInterval)
    (regular : AllRegular pollingInterval run) {before : List Surroundings}
    {surroundings : Surroundings} (inside : before ++ [surroundings] <+: run) :
    ∃ asked, ((monitoring (started pollingInterval loopBegin)).step
        ((monitoring (started pollingInterval loopBegin)).run before).state surroundings).2 =
          [asked] ∧
      Expected pollingInterval before.length surroundings asked := by
  have shorter := (List.prefix_append before [surroundings]).trans inside
  rcases @attending_run _ loopBegin _ positive (regular.of_prefix shorter) with
    ⟨attending, polled⟩
  have usual : rounds pollingInterval ∣ before.length → ∃ n rules, Regular surroundings n rules :=
    regular.of_prefix inside before.length surroundings (by simp)
  rcases attending.step fun on => usual (polled.mp on) with ⟨_, off, on⟩
  by_cases multiple : rounds pollingInterval ∣ before.length
  · rcases usual multiple with ⟨n, rules, here⟩
    have given := on (polled.mpr multiple)
    refine ⟨_, given n rules here, fun between => absurd multiple between, ?_⟩
    intro _ other others another
    have same := (given n rules here).symm.trans (given other others another)
    exact List.head_eq_of_cons_eq same
  · have given := off (by simpa using mt polled.mp multiple)
    exact ⟨_, given, fun _ => rfl, fun dvd => absurd dvd multiple⟩

/-- The run lemma for requests. -/
theorem expected_run (loopBegin : Int) (positive : 1 ≤ pollingInterval)
    (regular : AllRegular pollingInterval run) :
    (requests (started pollingInterval loopBegin) run).length = run.length ∧
      ∀ i surroundings, run[i]? = some surroundings →
        ∃ asked, (requests (started pollingInterval loopBegin) run)[i]? = some asked ∧
          Expected pollingInterval i surroundings asked := by
  rcases Machine.trace_of_single (monitoring (started pollingInterval loopBegin))
    fun before surroundings inside => expected_step loopBegin positive regular inside with
    ⟨length, found⟩
  constructor
  · rw [requests, List.length_map, length]
  · intro i surroundings present
    rcases found i surroundings present with ⟨asked, item, expected⟩
    have bound := (List.getElem?_eq_some_iff.mp present).1
    rw [List.length_take_of_le bound.le] at expected
    refine ⟨asked, ?_, expected⟩
    rw [requests, List.getElem?_map, item]
    rfl

/-- The iterations of a module whose polls are regular: it never leaves the main loop, sends
a heartbeat in each iteration, and in every poll reports the temperature with an event
for each rule that is triggered. -/
theorem alarms_raised {config : StrMap}
    (configured : readPollingInterval config = .ok pollingInterval)
    (positive : 1 ≤ pollingInterval) (loopBegin : Int)
    (regular : AllRegular pollingInterval run) :
    ∃ start, startUp config .readable loopBegin =
        (Course.ask [.setHeartbeatInterval 12000], some start) ∧
      ((monitoring start).run run).state.ending = none ∧
      (requests start run).length = run.length ∧
      ∀ i surroundings, run[i]? = some surroundings →
        ∃ asked, (requests start run)[i]? = some asked ∧
          Expected pollingInterval i surroundings asked :=
  ⟨started pollingInterval loopBegin, startUp_of_configured configured loopBegin,
    (attending_run positive regular).1.going, expected_run loopBegin positive regular⟩

end

/-! ## A hot day -/

/-- An alarm from twenty degrees and a tenth on. -/
def hotRule : RuleInfo where
  title := "hot".toList
  id := 0
  event := {
    module := "module_temperature".toList
    key := "temp_exceeded".toList
    configuration := (∅ : StrMap).insert "max_temp".toList "20.1".toList }
  action := {
    module := "module_sms".toList
    key := "send".toList
    configuration := ∅ }
  fireLimit := roundToDouble 0
  isDisabled := false

/-- The rules document with the alarm. -/
def hotDocument : Json.Object :=
  [("rules".toList, .array [.object
    [("title".toList, .string "hot".toList),
      ("event".toList, .object [("module".toList, .string "module_temperature".toList),
        ("key".toList, .string "temp_exceeded".toList),
        ("configuration".toList, .array [.object
          [("id".toList, .string "max_temp".toList), ("value".toList, .string "20.1".toList)]])]),
      ("action".toList, .object [("module".toList, .string "module_sms".toList),
        ("key".toList, .string "send".toList), ("configuration".toList, .array [])]),
      ("constraints".toList, .object [])]])]

/-- Some more than twenty degrees. -/
def hot : Surroundings where
  content := sensorText "aa YES".toList "aa ".toList 20125 []
  stray := []
  loader := ⟨"rules.conf".toList, hotDocument⟩
  loopTime := 1

def hotConfig : StrMap :=
  (∅ : StrMap).insert "polling_interval".toList "25".toList

theorem hot_regular : Regular hot 20125 [hotRule] := by
  refine ⟨.intro (by decide) (by decide) (by decide) (by decide) ?_ ?_, rfl, rfl, ?_⟩
  · exact Or.inr (Or.inl (by decide))
  · intro zero
    cases zero
  · intro rule member
    obtain rfl := List.mem_singleton.mp member
    intro _
    refine Or.inl ⟨rfl, Or.inr ⟨201 / 10, by decide +kernel, ?_, by norm_num⟩⟩
    exact ⟨20100000000, by norm_num⟩

/-- The second poll, after two iterations without one. -/
theorem alarms_raised_hot :
    ∃ start, startUp hotConfig .readable 0 =
        (Course.ask [.setHeartbeatInterval 12000], some start) ∧
      (requests start (List.replicate 4 hot))[3]? = some [.sendHeartbeat,
        .log .trace "20.125000".toList,
        .writeHook "\x7b \"temperature\": 20.125000 \x7d\n".toList,
        .sendEventMessage 0 "temp=20.125000".toList] := by
  have configured : readPollingInterval hotConfig = .ok 25 := by decide +kernel
  have regular : AllRegular 25 (List.replicate 4 hot) := by
    intro i surroundings present _
    obtain rfl := List.eq_of_mem_replicate (List.mem_of_getElem? present)
    exact ⟨20125, [hotRule], hot_regular⟩
  rcases alarms_raised configured (by decide) 0 regular with ⟨start, begun, _, _, found⟩
  rcases found 3 hot rfl with ⟨asked, item, expected⟩
  refine ⟨start, begun, item.trans (congrArg some ?_)⟩
  rw [expected.polled (by decide) 20125 [hotRule] hot_regular]
  decide +kernel

end Sentri.Modules.Temperature
