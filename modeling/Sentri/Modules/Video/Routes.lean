import Mathlib.Data.List.Nodup
import Sentri.Modules.Video.Engine
import Sentri.Number.Stod

/-!
# The routes of the video module

The engine combines the enabled rules with the same event configuration into one
route.  The loops take rules out of the vector that they go through; a route that
cannot be built ends the module.
-/

namespace Sentri.Modules.Video

open Sentri.Data Sentri.LibModule Sentri.Number Sentri.Text

namespace Engine

/-! ## Building a route -/

/-- Why the module ends while a route is built. -/
inductive Ending where
  | exit (severity : LogSeverity) (text : Str)
  /-- An exception that is not caught. -/
  | uncaught
  /-- A conversion without a defined result. -/
  | undefined
  deriving DecidableEq

inductive GeometryType where
  | point
  | linestring
  | polygon
  | box
  deriving DecidableEq

namespace GeometryType

def all : List GeometryType :=
  [point, linestring, polygon, box]

def keyword : GeometryType → Str
  | point => "POINT".toList
  | linestring => "LINESTRING".toList
  | polygon => "POLYGON".toList
  | box => "BOX".toList

end GeometryType

/-- One route: its colliders with their geometries, whether rectangles are highlighted,
and its output handler. -/
structure Pipeline (γ : Type) (α : Type) where
  colliders : List (List γ)
  highlighter : Bool
  output : OutputHandler α

section

variable {γ : Type}

/- `boost::geometry::read_wkt`, which throws for a text that is no geometry. -/
variable (readWkt : GeometryType → Str → Option γ)

/-- Texts that start with no keyword are passed over. -/
def readGeometry (text : Str) : Except Ending (List γ) :=
  match GeometryType.all.find? fun type => type.keyword.isPrefixOf text with
  | some type =>
      match readWkt type text with
      | some geometry => .ok [geometry]
      | none => .error .uncaught
  | none => .ok []

def readGeometries : List Str → Except Ending (List γ)
  | [] => .ok []
  | text :: left => do
      let first ← readGeometry readWkt text
      let rest ← readGeometries left
      return first ++ rest

/-- The colliders of an event configuration. -/
def readColliders (conf : StrMap) : Except Ending (List (List γ)) :=
  let rio := conf.getD "collider_rio".toList []
  if rio ≠ [] then
    return [← readGeometries readWkt (rio.splitOn '#')]
  else
    return []

/-- The maximum number of frames of a video, and the allocation of the buffer. -/
def readSize (text : Str) : Except Ending Nat :=
  match stod text with
  | .error .invalidArgument => .error
      (.exit .error ("Invalid conversion (video_output_number): ".toList ++ "stod".toList))
  | .error .outOfRange => .error (.exit .fatal
      ("Invalid configuration reading 'video_output_number': ".toList ++ "stod".toList))
  | .ok value =>
      match toInt value with
      | none => .error .undefined
      | some size => if size < 0 then .error .uncaught else .ok size.toNat

/-- The parts of a route that an event configuration determines. -/
def readEvent (conf : StrMap) : Except Ending (List (List γ) × Bool × Nat) := do
  let colliders ← readColliders readWkt conf
  let highlighter := decide (conf.getD "highlighter".toList [] = "true".toList)
  let size ← readSize (conf.getD "video_output_number".toList [])
  return (colliders, highlighter, size)

variable {α : Type}

/-- `storage` is what the memory of the output handler held before. -/
def addRoute (storage : Bool) (event : EventInfo) (map : RuleMap) :
    Except Ending (Pipeline γ α) := do
  let (colliders, highlighter, size) ← readEvent readWkt event.configuration
  return {
    colliders := colliders
    highlighter := highlighter
    output := Video.addRoute ⟨storage, size, map⟩ }

/-! ## Combining rules -/

/-- Two maps are the same if their lists of entries are. -/
instance : DecidableEq StrMap := fun map other =>
  decidable_of_iff (map.toList = other.toList) Std.ExtTreeMap.toList_inj

def sameEvent (event other : EventInfo) : Bool :=
  event.key = other.key ∧ event.configuration = other.configuration

/-- The loop that takes the rules with the same event out of the vector.  An erased
element takes the unsigned index back by one. -/
def collect (event : EventInfo) :
    Nat → UInt32 → List RuleInfo → RuleMap → Option (List RuleInfo × RuleMap)
  | 0, _, _, _ => none
  | fuel + 1, i, rules, map =>
      match rules[i.toNat]? with
      | none => some (rules, map)
      | some rule =>
          if sameEvent event rule.event then
            collect event fuel (i - 1 + 1) (rules.eraseIdx i.toNat)
              (map.insert rule.id rule.action)
          else
            collect event fuel (i + 1) rules map

/-- The loop over the rules from the back; `storage` is what the memory of the next
output handler held before. -/
def combine (storage : Nat → Bool) :
    Nat → List RuleInfo → List (Pipeline γ α) → Option (Except Ending (List (Pipeline γ α)))
  | 0, _, _ => none
  | fuel + 1, rules, routes =>
      match rules.getLast? with
      | none => some (.ok routes)
      | some r =>
          match collect r.event fuel 0 rules.dropLast ((∅ : RuleMap).insert r.id r.action) with
          | none => none
          | some (rules, map) =>
              match addRoute readWkt (storage routes.length) r.event map with
              | .error ending => some (.error ending)
              | .ok route => combine storage fuel rules (routes ++ [route])

/-- The routes, and whether frames are grabbed. -/
structure Routing (γ : Type) (α : Type) where
  routes : List (Pipeline γ α)
  enabled : Bool

/-- `none` stands for loops that are not over yet. -/
def applyRules (storage : Nat → Bool) (fuel : Nat) (rules : List RuleInfo)
    (routing : Routing γ α) : Option (Except Ending (Routing γ α)) :=
  let rules := rules.filter fun rule => !rule.isDisabled
  if rules.length = 0 then
    some (.ok { routing with enabled := false })
  else
    (combine readWkt storage fuel rules routing.routes).map fun result =>
      result.map fun routes => { routes := routes, enabled := true }

end

/-! ## The inner loop -/

/-- The entries of rules in the map of a route. -/
def insertRules (map : RuleMap) (rules : List RuleInfo) : RuleMap :=
  rules.foldl (fun map rule => map.insert rule.id rule.action) map

theorem mem_insertRules (map : RuleMap) (rules : List RuleInfo) (id : RuleID) :
    id ∈ insertRules map rules ↔ id ∈ map ∨ id ∈ rules.map RuleInfo.id := by
  induction rules generalizing map with
  | nil => simp [insertRules]
  | cons rule rules ih =>
      rw [insertRules, List.foldl_cons, ← insertRules, ih, Std.ExtTreeMap.mem_insert,
        List.map_cons, List.mem_cons, Std.LawfulEqCmp.compare_eq_iff_eq]
      tauto

theorem insertRules_of_notMem {map : RuleMap} {rules : List RuleInfo} {id : RuleID}
    (other : id ∉ rules.map RuleInfo.id) : (insertRules map rules)[id]? = map[id]? := by
  induction rules generalizing map with
  | nil => rfl
  | cons rule rules ih =>
      rw [List.map_cons, List.mem_cons, not_or] at other
      rw [insertRules, List.foldl_cons, ← insertRules, ih other.2, Std.ExtTreeMap.getElem?_insert,
        if_neg]
      rw [Std.LawfulEqCmp.compare_eq_iff_eq]
      exact fun equal => other.1 equal.symm

/-- Rules with different ids keep their own actions. -/
theorem insertRules_of_mem {map : RuleMap} {rules : List RuleInfo}
    (nodup : (rules.map RuleInfo.id).Nodup) {rule : RuleInfo} (member : rule ∈ rules) :
    (insertRules map rules)[rule.id]? = some rule.action := by
  induction rules generalizing map with
  | nil => cases member
  | cons first rules ih =>
      rw [List.map_cons, List.nodup_cons] at nodup
      rcases nodup with ⟨fresh, nodup⟩
      rw [insertRules, List.foldl_cons, ← insertRules]
      rcases List.mem_cons.mp member with rfl | later
      · rw [insertRules_of_notMem fresh, Std.ExtTreeMap.getElem?_insert_self]
      · exact ih nodup later

/-- The inner loop goes through the rules from its index on.  The index stays where
it is when a rule is erased, so that it meets the rule that moves up. -/
theorem collect_spec (event : EventInfo) {fuel : Nat} {i : UInt32} {rules : List RuleInfo}
    (map : RuleMap) (short : rules.length < 2 ^ 32) (enough : rules.length - i.toNat < fuel) :
    collect event fuel i rules map =
      some (rules.take i.toNat ++
          (rules.drop i.toNat).filter (fun rule => !sameEvent event rule.event),
        insertRules map
          ((rules.drop i.toNat).filter fun rule => sameEvent event rule.event)) := by
  induction fuel generalizing i rules map with
  | zero => exact absurd enough (Nat.not_lt_zero _)
  | succ fuel ih =>
      rw [collect]
      cases found : rules[i.toNat]? with
      | none =>
          have after := List.getElem?_eq_none_iff.mp found
          rw [List.take_of_length_le after, List.drop_of_length_le after, List.filter_nil,
            List.append_nil]
          rfl
      | some rule =>
          rcases List.getElem?_eq_some_iff.mp found with ⟨below, ruleEq⟩
          have here : rules.drop i.toNat = rule :: rules.drop (i.toNat + 1) := by
            rw [List.drop_eq_getElem_cons below, ruleEq]
          by_cases same : sameEvent event rule.event = true
          · have length := List.length_eraseIdx_of_lt below
            have front : (rules.take i.toNat).length = i.toNat :=
              List.length_take_of_le below.le
            have taken : (rules.eraseIdx i.toNat).take i.toNat = rules.take i.toNat := by
              rw [List.eraseIdx_eq_take_drop_succ, List.take_left' front]
            have dropped : (rules.eraseIdx i.toNat).drop i.toNat = rules.drop (i.toNat + 1) := by
              rw [List.eraseIdx_eq_take_drop_succ, List.drop_left' front]
            simp only [if_pos same, UInt32.sub_add_cancel]
            rw [ih _ (by omega) (by omega), taken, dropped, here,
              List.filter_cons_of_neg (by simpa using same),
              List.filter_cons_of_pos (p := fun rule : RuleInfo => sameEvent event rule.event) same]
            rfl
          · have next : (i + 1).toNat = i.toNat + 1 := by
              rw [UInt32.toNat_add, UInt32.toNat_one]
              exact Nat.mod_eq_of_lt (by omega)
            have advanced : rules.take (i.toNat + 1) = rules.take i.toNat ++ [rule] := by
              rw [List.take_add_one, found]
              rfl
            simp only [if_neg same]
            rw [ih _ short (by omega), next, advanced, here,
              List.filter_cons_of_pos (by simpa using same),
              List.filter_cons_of_neg (p := fun rule : RuleInfo => sameEvent event rule.event) same,
              List.append_assoc]
            rfl

/-! ## Groups of rules -/

theorem sameEvent_iff {event other : EventInfo} :
    sameEvent event other = true ↔
      event.key = other.key ∧ event.configuration = other.configuration :=
  decide_eq_true_iff

section

variable {γ α : Type} (readWkt : GeometryType → Str → Option γ)

/-- A route can be built from the event. -/
def Convertible (event : EventInfo) : Prop :=
  ∃ parts, readEvent readWkt event.configuration = .ok parts

/-- The enabled rules divided into routes. -/
structure Partition (rules : List RuleInfo) (routes : List (Pipeline γ α)) : Prop where
  /-- Every rule is in exactly one route. -/
  once : ∀ rule ∈ rules, routes.countP (fun route => route.output.map.contains rule.id) = 1
  /-- There is nothing else in a route. -/
  only : ∀ route ∈ routes, ∀ (id : RuleID), id ∈ route.output.map → ∃ rule ∈ rules, rule.id = id
  action : ∀ route ∈ routes, ∀ rule ∈ rules, rule.id ∈ route.output.map →
    route.output.map[rule.id]? = some rule.action
  same : ∀ rule ∈ rules, ∀ other ∈ rules,
    (∃ route ∈ routes, rule.id ∈ route.output.map ∧ other.id ∈ route.output.map) ↔
      rule.event.key = other.event.key ∧ rule.event.configuration = other.event.configuration
  /-- Every route is built from the event of its rules. -/
  built : ∀ route ∈ routes, ∀ rule ∈ rules, rule.id ∈ route.output.map →
    ∃ storage, addRoute readWkt storage rule.event route.output.map = .ok route

variable {readWkt}

/-- A route for a group of rules with one event, and the routes of the other rules. -/
structure Divided (rules group rest : List RuleInfo) (event : EventInfo) (route : Pipeline γ α)
    (routes : List (Pipeline γ α)) : Prop where
  mem_iff : ∀ rule, rule ∈ rules ↔ rule ∈ group ∨ rule ∈ rest
  own : ∀ rule ∈ group, rule.event.key = event.key ∧
    rule.event.configuration = event.configuration
  foreign : ∀ rule ∈ rest, ¬ (event.key = rule.event.key ∧
    event.configuration = rule.event.configuration)
  inMap : ∀ id : RuleID, id ∈ route.output.map ↔ id ∈ group.map RuleInfo.id
  restOut : ∀ rule ∈ rest, rule.id ∉ route.output.map
  groupOut : ∀ rule ∈ group, ∀ other ∈ routes, rule.id ∉ other.output.map

namespace Divided

variable {rules group rest : List RuleInfo} {event : EventInfo} {route : Pipeline γ α}
  {routes : List (Pipeline γ α)}

theorem groupIn (divided : Divided rules group rest event route routes) {rule : RuleInfo}
    (member : rule ∈ group) : rule.id ∈ route.output.map :=
  (divided.inMap rule.id).mpr (List.mem_map_of_mem member)

/-- A rule of the new route is in no other, and a rule of another is not in the new. -/
theorem mem_cases (divided : Divided rules group rest event route routes) {rule : RuleInfo}
    (member : rule ∈ rules) {other : Pipeline γ α} (inRoutes : other ∈ route :: routes)
    (inside : rule.id ∈ other.output.map) :
    (rule ∈ group ∧ other = route) ∨ (rule ∈ rest ∧ other ∈ routes) := by
  rcases (divided.mem_iff rule).mp member with inGroup | inRest
  · rcases List.mem_cons.mp inRoutes with new | later
    · exact Or.inl ⟨inGroup, new⟩
    · exact absurd inside (divided.groupOut rule inGroup other later)
  · rcases List.mem_cons.mp inRoutes with rfl | later
    · exact absurd inside (divided.restOut rule inRest)
    · exact Or.inr ⟨inRest, later⟩

theorem once (divided : Divided rules group rest event route routes)
    (partition : Partition readWkt rest routes) (rule : RuleInfo) (member : rule ∈ rules) :
    (route :: routes).countP (fun route => route.output.map.contains rule.id) = 1 := by
  rcases (divided.mem_iff rule).mp member with inGroup | inRest
  · have none : routes.countP (fun route => route.output.map.contains rule.id) = 0 :=
      List.countP_eq_zero.mpr fun other inRoutes inside =>
        divided.groupOut rule inGroup other inRoutes inside
    rw [List.countP_cons, none,
      if_pos (Std.ExtTreeMap.mem_iff_contains.mp (divided.groupIn inGroup))]
  · rw [List.countP_cons, if_neg (fun inside =>
      divided.restOut rule inRest (Std.ExtTreeMap.mem_iff_contains.mpr inside))]
    exact partition.once rule inRest

theorem only (divided : Divided rules group rest event route routes)
    (partition : Partition readWkt rest routes) {other : Pipeline γ α}
    (inRoutes : other ∈ route :: routes) {id : RuleID} (inside : id ∈ other.output.map) :
    ∃ rule ∈ rules, rule.id = id := by
  rcases List.mem_cons.mp inRoutes with rfl | later
  · rcases List.mem_map.mp ((divided.inMap id).mp inside) with ⟨rule, member, equal⟩
    exact ⟨rule, (divided.mem_iff rule).mpr (Or.inl member), equal⟩
  · rcases partition.only other later id inside with ⟨rule, member, equal⟩
    exact ⟨rule, (divided.mem_iff rule).mpr (Or.inr member), equal⟩

/-- Rules share a route exactly if they have the same event. -/
theorem same (divided : Divided rules group rest event route routes)
    (partition : Partition readWkt rest routes) {rule other : RuleInfo} (member : rule ∈ rules)
    (otherMember : other ∈ rules) :
    (∃ shared ∈ route :: routes, rule.id ∈ shared.output.map ∧ other.id ∈ shared.output.map) ↔
      rule.event.key = other.event.key ∧
        rule.event.configuration = other.event.configuration := by
  constructor
  · rintro ⟨shared, inRoutes, inside, otherInside⟩
    rcases divided.mem_cases member inRoutes inside with ⟨inGroup, rfl⟩ | ⟨inRest, later⟩
    · rcases divided.mem_cases otherMember inRoutes otherInside with
        ⟨otherGroup, _⟩ | ⟨otherRest, _⟩
      · have here := divided.own rule inGroup
        have there := divided.own other otherGroup
        exact ⟨here.1.trans there.1.symm, here.2.trans there.2.symm⟩
      · exact absurd otherInside (divided.restOut other otherRest)
    · rcases divided.mem_cases otherMember inRoutes otherInside with
        ⟨otherGroup, _⟩ | ⟨otherRest, _⟩
      · exact absurd otherInside (divided.groupOut other otherGroup shared later)
      · exact (partition.same rule inRest other otherRest).mp
          ⟨shared, later, inside, otherInside⟩
  · rintro ⟨key, configuration⟩
    rcases (divided.mem_iff rule).mp member with inGroup | inRest
    · have here := divided.own rule inGroup
      rcases (divided.mem_iff other).mp otherMember with otherGroup | otherRest
      · exact ⟨route, List.mem_cons_self, divided.groupIn inGroup, divided.groupIn otherGroup⟩
      · exact absurd ⟨here.1.symm.trans key, here.2.symm.trans configuration⟩
          (divided.foreign other otherRest)
    · rcases (divided.mem_iff other).mp otherMember with otherGroup | otherRest
      · have there := divided.own other otherGroup
        exact absurd ⟨(key.trans there.1).symm, (configuration.trans there.2).symm⟩
          (divided.foreign rule inRest)
      · rcases (partition.same rule inRest other otherRest).mpr ⟨key, configuration⟩ with
          ⟨shared, later, inside, otherInside⟩
        exact ⟨shared, List.mem_cons_of_mem _ later, inside, otherInside⟩

end Divided

/-- A rule, those with its event, and the rest, which has routes. -/
theorem divided_filter {rules : List RuleInfo} {r : RuleInfo} {others : List RuleInfo}
    {routes : List (Pipeline γ α)} {route : Pipeline γ α}
    (parts : rules.Perm (r :: others)) (nodup : (rules.map RuleInfo.id).Nodup)
    (partition : Partition readWkt
      (others.filter fun rule => !sameEvent r.event rule.event) routes)
    (routeMap : route.output.map =
      insertRules ∅ (r :: others.filter fun rule => sameEvent r.event rule.event)) :
    Divided rules (r :: others.filter fun rule => sameEvent r.event rule.event)
      (others.filter fun rule => !sameEvent r.event rule.event) r.event route routes := by
  let group := r :: others.filter fun rule => sameEvent r.event rule.event
  let rest := others.filter fun rule => !sameEvent r.event rule.event
  have split : rules.Perm (group ++ rest) :=
    parts.trans (List.Perm.cons r (List.filter_append_perm _ others).symm)
  have idsNodup : ((group ++ rest).map RuleInfo.id).Nodup :=
    (split.map RuleInfo.id).nodup_iff.mp nodup
  rw [List.map_append] at idsNodup
  have disjoint := (List.nodup_append.mp idsNodup).2.2
  have inMap : ∀ id : RuleID, id ∈ route.output.map ↔ id ∈ group.map RuleInfo.id := by
    intro id
    rw [routeMap, mem_insertRules]
    exact ⟨fun inside => inside.resolve_left Std.ExtTreeMap.not_mem_empty, Or.inr⟩
  refine ⟨?_, ?_, ?_, inMap, ?_, ?_⟩
  · intro rule
    rw [split.mem_iff, List.mem_append]
  · intro rule member
    rcases List.mem_cons.mp member with rfl | other
    · exact ⟨rfl, rfl⟩
    · have same := sameEvent_iff.mp (List.mem_filter.mp other).2
      exact ⟨same.1.symm, same.2.symm⟩
  · intro rule member same
    have different := (List.mem_filter.mp member).2
    rw [sameEvent_iff.mpr same] at different
    cases different
  · intro rule member inside
    exact disjoint _ ((inMap rule.id).mp inside) _ (List.mem_map_of_mem member) rfl
  · intro rule member other inRoutes inside
    rcases partition.only other inRoutes _ inside with ⟨left, leftMember, equal⟩
    exact disjoint _ (List.mem_map_of_mem member) _ (List.mem_map_of_mem leftMember) equal.symm

/-- A rule in front of the groups of the rules with other events. -/
theorem Partition.cons {rules : List RuleInfo} {r : RuleInfo} {others : List RuleInfo}
    {routes : List (Pipeline γ α)} {route : Pipeline γ α} {storage : Bool}
    (parts : rules.Perm (r :: others)) (nodup : (rules.map RuleInfo.id).Nodup)
    (partition : Partition readWkt
      (others.filter fun rule => !sameEvent r.event rule.event) routes)
    (routeMap : route.output.map =
      insertRules ∅ (r :: others.filter fun rule => sameEvent r.event rule.event))
    (built : addRoute readWkt storage r.event route.output.map = .ok route) :
    Partition readWkt rules (route :: routes) := by
  have divided := divided_filter parts nodup partition routeMap
  have groupNodup :
      ((r :: others.filter fun rule => sameEvent r.event rule.event).map RuleInfo.id).Nodup := by
    have inside : (r :: others.filter fun rule => sameEvent r.event rule.event).Sublist
        (r :: others) := List.Sublist.cons_cons r List.filter_sublist
    exact ((parts.map RuleInfo.id).nodup_iff.mp nodup).sublist (inside.map RuleInfo.id)
  refine ⟨divided.once partition, fun other inRoutes id => divided.only partition inRoutes, ?_,
    fun rule member other otherMember => divided.same partition member otherMember, ?_⟩
  · intro other inRoutes rule member inside
    rcases divided.mem_cases member inRoutes inside with ⟨inGroup, rfl⟩ | ⟨inRest, later⟩
    · rw [routeMap]
      exact insertRules_of_mem groupNodup inGroup
    · exact partition.action other later rule inRest inside
  · intro other inRoutes rule member inside
    rcases divided.mem_cases member inRoutes inside with ⟨inGroup, rfl⟩ | ⟨inRest, later⟩
    · refine ⟨storage, ?_⟩
      rw [addRoute, (divided.own rule inGroup).2]
      exact built
    · exact partition.built other later rule inRest inside

theorem addRoute_of_error {event : EventInfo} {ending : Ending}
    (failed : readEvent readWkt event.configuration = .error ending) (storage : Bool)
    (map : RuleMap) : addRoute (α := α) readWkt storage event map = .error ending := by
  rw [addRoute, failed]
  rfl

theorem addRoute_of_ok {event : EventInfo} {parts : List (List γ) × Bool × Nat}
    (read : readEvent readWkt event.configuration = .ok parts) (storage : Bool) (map : RuleMap) :
    ∃ route : Pipeline γ α, addRoute readWkt storage event map = .ok route ∧
      route.output.map = map := by
  rw [addRoute, read]
  exact ⟨_, rfl, rfl⟩

variable (readWkt)

/-- One round makes a route of the last rule and those with the same event. -/
theorem combine_concat (storage : Nat → Bool) (fuel : Nat) (others : List RuleInfo) (r : RuleInfo)
    (short : others.length < 2 ^ 32) (enough : others.length < fuel)
    (routes : List (Pipeline γ α)) :
    combine readWkt storage (fuel + 1) (others ++ [r]) routes =
      match addRoute readWkt (storage routes.length) r.event
        (insertRules ∅ (r :: others.filter fun rule => sameEvent r.event rule.event)) with
      | .error ending => some (.error ending)
      | .ok route => combine readWkt storage fuel
          (others.filter fun rule => !sameEvent r.event rule.event) (routes ++ [route]) := by
  have collected : collect r.event fuel 0 others ((∅ : RuleMap).insert r.id r.action) =
      some (others.filter fun rule => !sameEvent r.event rule.event,
        insertRules ∅ (r :: others.filter fun rule => sameEvent r.event rule.event)) :=
    collect_spec r.event _ short (by rw [UInt32.toNat_zero]; omega)
  rw [combine, List.getLast?_concat]
  simp only [List.dropLast_concat, collected]

/-- The loop over the rules divides them into routes, or stops at an event that cannot
be made into one. -/
theorem combine_spec (storage : Nat → Bool) {fuel : Nat} {rules : List RuleInfo}
    (nodup : (rules.map RuleInfo.id).Nodup) (short : rules.length ≤ 2 ^ 32)
    (enough : rules.length < fuel) (routes : List (Pipeline γ α)) :
    (∃ built, combine readWkt storage fuel rules routes = some (.ok (routes ++ built)) ∧
      Partition readWkt rules built ∧ ∀ rule ∈ rules, Convertible readWkt rule.event) ∨
    ∃ ending, combine readWkt storage fuel rules routes = some (.error ending) ∧
      ∃ rule ∈ rules, readEvent readWkt rule.event.configuration = .error ending := by
  induction fuel generalizing rules routes with
  | zero => exact absurd enough (Nat.not_lt_zero _)
  | succ fuel ih =>
      rcases rules.eq_nil_or_concat' with rfl | ⟨others, r, rfl⟩
      · left
        refine ⟨[], by simp [combine], ?_, by simp⟩
        exact ⟨by simp, by simp, by simp, by simp, by simp⟩
      · let rest := others.filter fun rule => !sameEvent r.event rule.event
        let map := insertRules ∅ (r :: others.filter fun rule => sameEvent r.event rule.event)
        rw [List.length_append, List.length_singleton] at enough short
        have perm : (others ++ [r]).Perm (r :: others) := List.perm_append_singleton r others
        have restLength : rest.length ≤ others.length := List.length_filter_le _ _
        have restNodup : (rest.map RuleInfo.id).Nodup := by
          have inside : rest.Sublist (others ++ [r]) :=
            List.filter_sublist.trans (List.sublist_append_left _ _)
          exact nodup.sublist (inside.map RuleInfo.id)
        have round := combine_concat readWkt storage fuel others r (by omega) (by omega) routes
        cases read : readEvent readWkt r.event.configuration with
        | error ending =>
            right
            refine ⟨ending, ?_, r, List.mem_append_right _ List.mem_cons_self, read⟩
            rw [round, addRoute_of_error read]
        | ok parts =>
            rcases addRoute_of_ok (α := α) read (storage routes.length) map with
              ⟨route, built, routeMap⟩
            rw [round, built]
            have remember : ∀ rule ∈ others, rule ∈ rest ∨
                rule.event.configuration = r.event.configuration := by
              intro rule member
              by_cases same : sameEvent r.event rule.event = true
              · exact Or.inr (sameEvent_iff.mp same).2.symm
              · exact Or.inl (List.mem_filter.mpr ⟨member, by simpa using same⟩)
            rcases ih restNodup (by omega) (by omega) (routes ++ [route]) with
              ⟨left, combined, partition, convertible⟩ | ⟨ending, combined, rule, member, failed⟩
            · left
              refine ⟨route :: left, ?_, ?_, ?_⟩
              · rw [List.append_assoc] at combined
                exact combined
              · rw [← routeMap] at built
                exact partition.cons perm nodup routeMap built
              · intro rule member
                rcases List.mem_append.mp member with other | last
                · rcases remember rule other with later | same
                  · exact convertible rule later
                  · exact ⟨parts, by rw [same, read]⟩
                · rw [List.mem_singleton.mp last]
                  exact ⟨parts, read⟩
            · right
              have inOthers := (List.mem_filter.mp member).1
              exact ⟨ending, combined, rule, List.mem_append_left _ inOthers, failed⟩

/-- The rules that are not disabled. -/
def enabledRules (rules : List RuleInfo) : List RuleInfo :=
  rules.filter fun rule => !rule.isDisabled

/-- A round for every rule is enough. -/
theorem applyRules_spec (storage : Nat → Bool) {rules : List RuleInfo}
    (nodup : (rules.map RuleInfo.id).Nodup) (short : rules.length ≤ 2 ^ 32)
    {routing : Routing γ α} (fresh : routing.routes = []) :
    (∃ result, applyRules readWkt storage (rules.length + 1) rules routing = some (.ok result) ∧
      Partition readWkt (enabledRules rules) result.routes ∧
      (result.enabled = false ↔ enabledRules rules = []) ∧
      ∀ rule ∈ enabledRules rules, Convertible readWkt rule.event) ∨
    ∃ ending, applyRules readWkt storage (rules.length + 1) rules routing = some (.error ending) ∧
      ∃ rule ∈ enabledRules rules, readEvent readWkt rule.event.configuration = .error ending := by
  have fewer : (enabledRules rules).length ≤ rules.length := List.length_filter_le _ _
  have enabledNodup : ((enabledRules rules).map RuleInfo.id).Nodup :=
    nodup.sublist (List.filter_sublist.map RuleInfo.id)
  rcases (enabledRules rules).eq_nil_or_concat' with none | ⟨others, r, some⟩
  · left
    refine ⟨{ routing with enabled := false }, ?_, ?_, by simp [none], by simp [none]⟩
    · rw [applyRules, ← enabledRules, none]
      rfl
    · rw [none]
      have noRoutes : ({ routing with enabled := false } : Routing γ α).routes = [] := fresh
      rw [noRoutes]
      exact ⟨by simp, by simp, by simp, by simp, by simp⟩
  · have positive : ¬ (enabledRules rules).length = 0 := by
      rw [some]
      simp
    have unfolded : applyRules readWkt storage (rules.length + 1) rules routing =
        (combine readWkt storage (rules.length + 1) (enabledRules rules) []).map fun result =>
          result.map fun routes => { routes := routes, enabled := true } := by
      rw [applyRules, ← enabledRules, fresh]
      exact if_neg positive
    rw [unfolded]
    rcases combine_spec (α := α) readWkt storage enabledNodup (by omega)
      (by omega : (enabledRules rules).length < rules.length + 1) [] with
      ⟨built, combined, partition, convertible⟩ | ⟨ending, combined, failed⟩
    · left
      rw [combined]
      refine ⟨⟨built, true⟩, rfl, partition, ?_, convertible⟩
      have nonempty : enabledRules rules ≠ [] := by
        rw [some]
        simp
      exact iff_of_false (by simp) nonempty
    · right
      rw [combined]
      exact ⟨ending, rfl, failed⟩

/-- The loops end.  Unless the event of an enabled rule cannot be made into a route,
which ends the module, the routes divide the enabled rules by their events, without
a disabled rule, and frames are grabbed if there is an enabled rule. -/
theorem routes_partition (storage : Nat → Bool) {rules : List RuleInfo}
    (nodup : (rules.map RuleInfo.id).Nodup) (short : rules.length ≤ 2 ^ 32)
    {routing : Routing γ α} (fresh : routing.routes = []) :
    ((∀ rule ∈ rules, rule.isDisabled = false → Convertible readWkt rule.event) →
      ∃ result, applyRules readWkt storage (rules.length + 1) rules routing = some (.ok result) ∧
        Partition readWkt (enabledRules rules) result.routes ∧
        (∀ rule ∈ rules, rule.isDisabled = true →
          ∀ route ∈ result.routes, rule.id ∉ route.output.map) ∧
        (result.enabled = false ↔ ∀ rule ∈ rules, rule.isDisabled = true)) ∧
    ((∃ rule ∈ rules, rule.isDisabled = false ∧ ¬ Convertible readWkt rule.event) →
      ∃ ending,
        applyRules readWkt storage (rules.length + 1) rules routing = some (.error ending)) := by
  have enabledIff : ∀ rule, rule ∈ enabledRules rules ↔ rule ∈ rules ∧ rule.isDisabled = false := by
    intro rule
    rw [enabledRules, List.mem_filter, Bool.not_eq_true']
  rcases applyRules_spec readWkt storage nodup short fresh with
    ⟨result, applied, partition, enabled, convertible⟩ | ⟨ending, applied, rule, member, failed⟩
  · constructor
    · intro _
      refine ⟨result, applied, partition, ?_, ?_⟩
      · intro rule member disabled route inRoutes inside
        rcases partition.only route inRoutes rule.id inside with ⟨other, otherEnabled, equal⟩
        rcases (enabledIff other).mp otherEnabled with ⟨otherMember, otherOn⟩
        have same : other = rule :=
          List.inj_on_of_nodup_map nodup otherMember member equal
        rw [same, disabled] at otherOn
        cases otherOn
      · rw [enabled, List.eq_nil_iff_forall_not_mem]
        constructor
        · intro none rule member
          by_contra on
          exact none rule ((enabledIff rule).mpr ⟨member, by simpa using on⟩)
        · intro all rule member
          rcases (enabledIff rule).mp member with ⟨inside, on⟩
          rw [all rule inside] at on
          cases on
    · rintro ⟨rule, member, on, unreadable⟩
      exact absurd (convertible rule ((enabledIff rule).mpr ⟨member, on⟩)) unreadable
  · constructor
    · intro convertible
      rcases (enabledIff rule).mp member with ⟨inside, on⟩
      rcases convertible rule inside on with ⟨parts, read⟩
      rw [failed] at read
      cases read
    · intro _
      exact ⟨ending, applied⟩

end

/-- A rule for motions with an event configuration. -/
def motionRule (id : RuleID) (configuration : StrMap) : RuleInfo where
  title := []
  id := id
  event := ⟨[], "module_video".toList, [], "motion".toList, configuration, []⟩
  action := ⟨[], "module_sms".toList, [], "sms".toList, ∅, []⟩
  fireLimit := 0
  isDisabled := false

/-- A configuration without colliders, and with videos of twenty frames. -/
def twentyFrames : StrMap :=
  (∅ : StrMap).insert "video_output_number".toList "20".toList

theorem readEvent_twentyFrames :
    readEvent (fun _ text => some text) twentyFrames = .ok ([], false, 20) := by
  have size : readSize "20".toList = .ok 20 := by decide +kernel
  have noCollider : twentyFrames.getD "collider_rio".toList [] = [] := by decide
  have noHighlighter : twentyFrames.getD "highlighter".toList [] = [] := by decide
  have frames : twentyFrames.getD "video_output_number".toList [] = "20".toList := by decide
  rw [readEvent, readColliders, noCollider, noHighlighter, frames, size]
  rfl

theorem routes_partition_twentyFrames :
    ∃ result, applyRules (α := Unit) (fun _ text => some text) (fun _ => false) 3
        [motionRule 0 twentyFrames, motionRule 1 twentyFrames] ⟨[], false⟩ = some (.ok result) ∧
      ∃ route ∈ result.routes, 0 ∈ route.output.map ∧ 1 ∈ route.output.map := by
  let rules := [motionRule 0 twentyFrames, motionRule 1 twentyFrames]
  have nodup : (rules.map RuleInfo.id).Nodup := by decide
  have short : rules.length ≤ 2 ^ 32 := by decide
  have fresh : (⟨[], false⟩ : Routing Str Unit).routes = [] := rfl
  have convertible : ∀ rule ∈ rules, rule.isDisabled = false →
      Convertible (fun _ text => some text) rule.event := by
    intro rule member _
    rcases List.mem_pair.mp member with rfl | rfl
    · exact ⟨_, readEvent_twentyFrames⟩
    · exact ⟨_, readEvent_twentyFrames⟩
  rcases (routes_partition (fun _ text => some text) (fun _ => false) nodup short fresh).1
    convertible with ⟨result, applied, parts, _⟩
  have first : motionRule 0 twentyFrames ∈ enabledRules rules := List.mem_cons_self
  have second : motionRule 1 twentyFrames ∈ enabledRules rules :=
    List.mem_cons_of_mem _ List.mem_cons_self
  exact ⟨result, applied, (parts.same _ first _ second).mpr ⟨rfl, rfl⟩⟩

/-- A rule without the maximum number of frames ends the module. -/
theorem no_route_without_size :
    ¬ ∀ (rules : List RuleInfo), (rules.map RuleInfo.id).Nodup →
      ∃ fuel result, applyRules (γ := Str) (α := Unit) (fun _ text => some text) (fun _ => false)
        fuel rules ⟨[], false⟩ = some (.ok result) := by
  intro always
  rcases always [motionRule 0 ∅] (by simp) with ⟨fuel, result, applied⟩
  rcases fuel with _ | _ | fuel
  · cases applied
  · cases applied
  · let ending : Ending := .exit .error "Invalid conversion (video_output_number): stod".toList
    have failed : readEvent (γ := Str) (fun _ text => some text)
        (motionRule 0 ∅).event.configuration = .error ending := by
      decide +kernel
    have ended : combine (γ := Str) (α := Unit) (fun _ text => some text) (fun _ => false)
        (fuel + 1 + 1) [motionRule 0 ∅] [] = some (.error ending) := by
      have round := combine_concat (γ := Str) (α := Unit) (fun _ text => some text)
        (fun _ => false) (fuel + 1) [] (motionRule 0 ∅) (by decide) fuel.succ_pos []
      rw [addRoute_of_error failed] at round
      exact round
    change Option.map _ (combine (fun _ text => some text) (fun _ => false) (fuel + 1 + 1)
      [motionRule 0 ∅] []) = _ at applied
    rw [ended] at applied
    cases applied

end Engine

end Sentri.Modules.Video
