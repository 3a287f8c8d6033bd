import Sentri.Transition.Machine

/-!
# Objects that are created, used and released

A trace of what is done to objects of some type is disciplined when no object is
created twice, and every pointer that is used or released leads to an object that
was created and not yet released.  Releasing a null pointer does nothing and is not
part of a trace.
-/

namespace Sentri.Transition

universe u

/-- What can be done to objects.  The pointer that is used or released is `none` when it
leads to no object at all. -/
inductive Touch (ι : Type u) where
  | create (object : ι)
  | use (pointer : Option ι)
  | release (pointer : Option ι)
  deriving DecidableEq

variable {ι : Type u}

/-- The object was created and not yet released. -/
def Live (touches : List (Touch ι)) (object : ι) : Prop :=
  .create object ∈ touches ∧ .release (some object) ∉ touches

/-- What a touch requires of those before it. -/
def Touch.Allowed (before : List (Touch ι)) : Touch ι → Prop
  | .create object => .create object ∉ before
  | .use pointer => ∃ object, pointer = some object ∧ Live before object
  | .release pointer => ∃ object, pointer = some object ∧ Live before object

def Disciplined (touches : List (Touch ι)) : Prop :=
  Throughout Touch.Allowed touches

theorem Live.append {touches more : List (Touch ι)} {object : ι} (live : Live touches object)
    (kept : .release (some object) ∉ more) : Live (touches ++ more) object := by
  constructor
  · exact List.mem_append_left _ live.1
  · intro member
    rcases List.mem_append.mp member with old | new
    · exact live.2 old
    · exact kept new

/-- What was not created before is live after its creation. -/
theorem Live.create {touches : List (Touch ι)} {object : ι}
    (unreleased : .release (some object) ∉ touches) :
    Live (touches ++ [.create object]) object := by
  constructor
  · simp
  · simpa using unreleased

namespace Disciplined

variable {touches : List (Touch ι)} {object : ι}

theorem nil : Disciplined ([] : List (Touch ι)) :=
  Throughout.nil

theorem create (disciplined : Disciplined touches) (fresh : .create object ∉ touches) :
    Disciplined (touches ++ [.create object]) :=
  Throughout.concat disciplined fresh

theorem use (disciplined : Disciplined touches) (live : Live touches object) :
    Disciplined (touches ++ [.use (some object)]) :=
  Throughout.concat disciplined ⟨object, rfl, live⟩

theorem release (disciplined : Disciplined touches) (live : Live touches object) :
    Disciplined (touches ++ [.release (some object)]) :=
  Throughout.concat disciplined ⟨object, rfl, live⟩

/-- Different live objects can be released one after the other. -/
theorem release_all {objects : List ι} (disciplined : Disciplined touches)
    (live : ∀ object ∈ objects, Live touches object) (distinct : objects.Nodup) :
    Disciplined (touches ++ objects.map fun object => .release (some object)) := by
  induction objects generalizing touches with
  | nil => simpa using disciplined
  | cons object objects ih =>
      rw [List.map_cons, ← List.singleton_append, ← List.append_assoc]
      rcases List.nodup_cons.mp distinct with ⟨fresh, rest⟩
      apply ih (disciplined.release (live object List.mem_cons_self)) _ rest
      intro other member
      apply (live other (List.mem_cons_of_mem _ member)).append
      intro released
      obtain rfl : other = object := by simpa using released
      exact fresh member

/-- Only objects that were created are released. -/
theorem created_of_released (disciplined : Disciplined touches)
    (released : .release (some object) ∈ touches) : .create object ∈ touches := by
  rcases List.append_of_mem released with ⟨before, after, rfl⟩
  rcases disciplined before _ after rfl with ⟨other, equal, live⟩
  obtain rfl : object = other := Option.some.inj equal
  exact List.mem_append_left _ live.1

/-- A pointer to nothing is neither used nor released. -/
theorem of_mem {touch : Touch ι} (disciplined : Disciplined touches) (member : touch ∈ touches) :
    touch ≠ .use none ∧ touch ≠ .release none := by
  rcases List.append_of_mem member with ⟨before, after, rfl⟩
  have allowed := disciplined before touch after rfl
  constructor
  · rintro rfl
    rcases allowed with ⟨object, equal, _⟩
    cases equal
  · rintro rfl
    rcases allowed with ⟨object, equal, _⟩
    cases equal

end Disciplined

end Sentri.Transition
