import Sentri.Core.Queues

/-!
# The core identifier

The constructor of the messenger draws eight symbols at random and puts them behind
the name of the system.  The array it draws from ends with a NUL, and so does the one
it draws into.
-/

namespace Sentri.Core.Messenger

open Sentri.LibModule Sentri.Text

def systemName : Str :=
  "sentri".toList

def ucidPrefix : Str :=
  systemName ++ "_".toList

def coreQueuePostfix : Str :=
  "--events".toList

/-- Length of the random part. -/
def kLength : Nat :=
  8

def hexDigits : Str :=
  "0123456789ABCDEF".toList

/-- The array that is initialised with the digits. -/
def symbols : Str :=
  hexDigits ++ [nul]

/-- The symbol for a value of `rand_r`. -/
def symbolFor (drawn : Nat) : Char :=
  symbols.get ⟨drawn % symbols.length, Nat.mod_lt _ (by decide)⟩

/-- The array `random`, filled from the values of `rand_r`. -/
def random (draws : Nat → Nat) : Str :=
  (List.range kLength).map (fun i => symbolFor (draws i)) ++ [nul]

/-- The constructor. -/
def new (draws : Nat → Nat) : Messenger where
  ucid := ucidPrefix ++ cStr (random draws)
  messageQueues := ∅

def coreQueueName (messenger : Messenger) : Str :=
  messenger.ucid ++ coreQueuePostfix

/-- The system name, followed by eight digits. -/
def WellFormed (id : Str) : Prop :=
  ∃ suffix, id = ucidPrefix ++ suffix ∧ suffix.length = kLength ∧ ∀ c ∈ suffix, c ∈ hexDigits

/-- The names of the core queue and of all queues that are ever added start with the
identifier. -/
structure Derived (room : QueueNames → Str → Bool) (names : QueueNames) (id : Str) : Prop where
  core : ∀ calls, id <+: coreQueueName (performAll room id names calls).messenger
  modules : ∀ calls module, id <+: uqid (performAll room id names calls).messenger.ucid module
  created : ∀ calls, ∀ name ∈ (performAll room id names calls).names,
    name ∈ names ∨ id <+: name

/-! ## Names of queues -/

theorem performAll_ucid (room : QueueNames → Str → Bool) (id : Str) (names : QueueNames)
    (calls : List QueueCall) : (performAll room id names calls).messenger.ucid = id := by
  induction calls using List.reverseRecOn with
  | nil => rfl
  | append_singleton calls call ih =>
      rw [performAll, List.foldl_append, List.foldl_cons, List.foldl_nil, ← performAll]
      cases call with
      | addQueue module => exact (addQueue_ucid room module _).trans ih
      | removeQueue module => exact (removeQueue_ucid module _).trans ih

theorem prefix_uqid (id module : Str) : id <+: uqid id module := by
  rw [uqid, queueStem, List.append_assoc]
  exact List.prefix_append _ _

theorem mem_destroy_imp {handler : Option MessageHandler} {names : QueueNames} {name : Str}
    (member : name ∈ MessageHandler.destroy handler names) : name ∈ names := by
  cases handler with
  | none => exact member
  | some handler => exact (Std.ExtTreeSet.mem_erase.mp member).2

theorem mem_removeQueue_names {module name : Str} {queues : Queues}
    (member : name ∈ (removeQueue module queues).names) : name ∈ queues.names := by
  unfold removeQueue at member
  split at member
  · exact member
  · exact mem_destroy_imp member

/-- An added queue has the name made for it. -/
theorem mem_addQueue_names {room : QueueNames → Str → Bool} {module name : Str}
    {queues : Queues} (member : name ∈ (addQueue room module queues).names) :
    name ∈ queues.names ∨ name = uqid queues.messenger.ucid module := by
  simp only [addQueue, MessageHandler.create] at member
  split at member
  · rcases Std.ExtTreeSet.mem_insert.mp member with same | old
    · exact .inr (Std.LawfulEqCmp.compare_eq_iff_eq.mp same).symm
    · exact .inl (mem_removeQueue_names (Std.ExtTreeSet.mem_erase.mp old).2)
  · exact .inl (mem_removeQueue_names (Std.ExtTreeSet.mem_erase.mp member).2)

theorem mem_performAll_names {room : QueueNames → Str → Bool} {id : Str} {names : QueueNames}
    {calls : List QueueCall} {name : Str}
    (member : name ∈ (performAll room id names calls).names) : name ∈ names ∨ id <+: name := by
  induction calls using List.reverseRecOn with
  | nil => exact .inl member
  | append_singleton calls call ih =>
      rw [performAll, List.foldl_append, List.foldl_cons, List.foldl_nil, ← performAll] at member
      cases call with
      | addQueue module =>
          rcases mem_addQueue_names member with old | rfl
          · exact ih old
          · rw [performAll_ucid]
            exact .inr (prefix_uqid id module)
      | removeQueue module => exact ih (mem_removeQueue_names member)

/-- Every name is derived from the identifier, whatever it is. -/
theorem derived (room : QueueNames → Str → Bool) (names : QueueNames) (id : Str) :
    Derived room names id where
  core calls := by
    rw [coreQueueName, performAll_ucid]
    exact List.prefix_append _ _
  modules calls module := by
    rw [performAll_ucid]
    exact prefix_uqid id module
  created _ _ member := mem_performAll_names member

/-! ## The random part -/

/-- Behind the digits there is the NUL. -/
theorem symbolFor_eq_nul_iff (drawn : Nat) : symbolFor drawn = nul ↔ drawn % 17 = 16 := by
  have last : ∀ k, (bound : k < 17) → (symbols.get ⟨k, bound⟩ = nul ↔ k = 16) := by decide
  exact last (drawn % 17) (Nat.mod_lt _ (by decide))

theorem symbolFor_mem (drawn : Nat) (other : symbolFor drawn ≠ nul) :
    symbolFor drawn ∈ hexDigits := by
  have member : symbolFor drawn ∈ symbols := List.get_mem _ _
  rcases List.mem_append.mp member with digit | last
  · exact digit
  · exact absurd (List.mem_singleton.mp last) other

/-- The text in the array ends where a NUL was drawn. -/
theorem cStr_random (draws : Nat → Nat) : cStr (random draws) =
    ((List.range kLength).map fun i => symbolFor (draws i)).takeWhile (· ≠ nul) := by
  rw [cStr, random, List.takeWhile_append]
  split
  · next whole =>
      rw [(List.takeWhile_prefix _).eq_of_length whole]
      simp
  · rfl

/-- The identifier is well formed, and all queue names start with it, if and only if
none of the eight values leads to the NUL behind the digits. -/
theorem ucid_wellFormed_iff (room : QueueNames → Str → Bool) (names : QueueNames)
    (draws : Nat → Nat) :
    WellFormed (new draws).ucid ∧ Derived room names (new draws).ucid ↔
      ∀ i < kLength, draws i % 17 ≠ 16 := by
  rw [and_iff_left (derived room names _)]
  let drawn := (List.range kLength).map fun i => symbolFor (draws i)
  have text : (new draws).ucid = ucidPrefix ++ drawn.takeWhile (· ≠ nul) := by
    rw [new, cStr_random]
  have noNul : (∀ i < kLength, draws i % 17 ≠ 16) ↔ ∀ c ∈ drawn, c ≠ nul := by
    simp [drawn, symbolFor_eq_nul_iff]
  rw [noNul]
  constructor
  · rintro ⟨suffix, equal, length, _⟩ c member
    rw [text] at equal
    have same := List.append_cancel_left equal
    have whole : drawn.takeWhile (· ≠ nul) = drawn := by
      apply (List.takeWhile_prefix _).eq_of_length
      rw [same, length]
      simp [drawn]
    have all := List.takeWhile_eq_self_iff.mp whole c member
    simpa using all
  · intro inRange
    have whole : drawn.takeWhile (· ≠ nul) = drawn := by
      apply List.takeWhile_eq_self_iff.mpr
      intro c member
      simpa using inRange c member
    refine ⟨drawn, by rw [text, whole], by simp [drawn], ?_⟩
    intro c member
    rcases List.mem_map.mp member with ⟨i, _, rfl⟩
    exact symbolFor_mem _ (inRange _ member)

/-- The first value leads to the NUL, and nothing is left of the random part. -/
theorem ucid_of_sixteen :
    ¬ (WellFormed (new fun _ => 16).ucid ∧
      Derived (fun _ _ => true) ∅ (new fun _ => 16).ucid) := by
  rintro ⟨⟨suffix, equal, length, _⟩, _⟩
  have empty : (new fun _ => 16).ucid = ucidPrefix ++ [] := by decide
  rw [empty] at equal
  rw [← List.append_cancel_left equal] at length
  cases length

end Sentri.Core.Messenger
