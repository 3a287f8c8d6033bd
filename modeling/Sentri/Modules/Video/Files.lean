import Mathlib.Data.List.Perm.Basic
import Sentri.Modules.Video.Attachments
import Sentri.Transition.Books

/-!
# Attachments outlive their events

As long as no two routes write the same file, the handler of a file counts at
least the events that carry it, and all other handlers count at most zero.
Two routes that see a motion in the same frame write the same image, count its
events apart, and the first answer makes both remove it.
-/

namespace Sentri.Modules.Video

open Sentri.Data Sentri.LibModule Sentri.Text Sentri.Transition

universe u

variable {α : Type u}

/-- A file is only removed when every event that carries it is answered. -/
def FilesOutlive (machine : Machine (System α) (Op α) (Effect α)) (ops : List (Op α)) : Prop :=
  ∀ before op after, ops = before ++ op :: after →
    ∀ name, Effect.removed name ∈ (machine.step (machine.run before).state op).2 →
      ∀ event ∈ (machine.run (before ++ [op])).state.events, ¬ Carries name event

/-- A call of a route starts the writer of a file for at least one rule. -/
def Announces (machine : Machine (System α) (Op α) (Effect α)) (ops : List (Op α))
    (route : Nat) (name : Str) : Prop :=
  ∃ before call after, ops = before ++ .out route call :: after ∧
    ∃ handler, (machine.run before).state.routes[route]? = some handler ∧
      name ∈ handler.announced call

/-- No two routes write the same file. -/
def SeparateFiles (machine : Machine (System α) (Op α) (Effect α)) (ops : List (Op α)) : Prop :=
  ∀ first second name, Announces machine ops first name → Announces machine ops second name →
    first = second

theorem OutputHandler.removed_notMem_out (handler : OutputHandler α) (call : Call α)
    (name : Str) : Effect.removed name ∉ (handler.out call).2 := by
  obtain ⟨writers, starts, effects⟩ := out_starts handler call
  intro member
  rw [effects] at member
  rcases List.mem_append.mp member with writer | plain
  · obtain ⟨attachment, img, time, file⟩ := starts.writers _ writer
    cases file
  · obtain ⟨rule, _, equal⟩ := List.mem_map.mp plain
    cases equal

namespace System

/-- How many events that are not answered carry a file. -/
def unanswered (system : System α) (name : Str) : Nat :=
  system.events.countP (Carries name)

/-- The books that the handlers keep about the events of the files. -/
def books (system : System α) : Books Nat Str where
  count route := system.routes[route]?.map fun handler name =>
    handler.pendingAttachments.getD name 0
  outstanding := system.unanswered

/-- The books of the handlers are in order, when `announced` tells which routes
announced which files. -/
structure Counted (announced : Nat → Str → Prop) (system : System α) : Prop where
  path : ∀ (route : Nat) handler, system.routes[route]? = some handler → handler.path = tempPath
  known : ∀ event ∈ system.events, Known event
  sound : Books.Sound announced system.books

theorem books_count {system : System α} {route : Nat} {handler : OutputHandler α}
    (present : system.routes[route]? = some handler) :
    system.books.count route = some fun name => handler.pendingAttachments.getD name 0 := by
  simp only [books, present, Option.map_some]

/-- Without a change of the handlers, events may be lost and change places. -/
theorem Counted.quiet {announced : Nat → Str → Prop} {system next : System α}
    (counted : Counted announced system) (routes : next.routes = system.routes)
    (events : next.events.Subperm system.events) : Counted announced next where
  path := routes ▸ counted.path
  known event member := counted.known event (events.subset member)
  sound := by
    apply counted.sound.lose
    · simp only [books, routes]
    · exact fun name => events.countP_le _

/-! ## Calls -/

section Calls

variable {announced : Nat → Str → Prop} {system : System α} {route : Nat}
  {handler : OutputHandler α}

theorem step_out (present : system.routes[route]? = some handler) (call : Call α) :
    system.step (.out route call) =
      ({ system with
          routes := system.routes.set route (handler.out call).1
          outgoing := system.outgoing ++ (handler.out call).2.flatMap (handler.messages call) },
        (handler.out call).2) := by
  simp only [step, present]

theorem step_out_routes (present : system.routes[route]? = some handler) (call : Call α)
    (other : Nat) :
    (system.step (.out route call)).1.routes[other]? =
      if route = other then some (handler.out call).1 else system.routes[other]? := by
  have bound : route < system.routes.length := (List.getElem?_eq_some_iff.mp present).1
  rw [step_out present, List.getElem?_set]
  simp [bound]

theorem step_out_events (present : system.routes[route]? = some handler) (call : Call α) :
    (system.step (.out route call)).1.events.Perm
      (system.events ++
        ((handler.out call).2.flatMap (handler.messages call)).filterMap Message.event?) := by
  rw [step_out present]
  simp only [events, List.filterMap_append, List.append_assoc]
  exact List.perm_append_comm.append_left _

theorem step_out_unanswered (present : system.routes[route]? = some handler) (call : Call α)
    (name : Str) :
    (system.step (.out route call)).1.unanswered name =
      system.unanswered name +
        carrying name ((handler.out call).2.flatMap (handler.messages call)) := by
  rw [unanswered, (step_out_events present call).countP_eq, List.countP_append]
  rfl

/-- A call adds the events of the files it announces. -/
theorem step_out_adds (present : system.routes[route]? = some handler)
    (path : handler.path = tempPath) (call : Call α) :
    Books.Adds route (fun name => name ∈ handler.announced call) system.books
      (system.step (.out route call)).1.books where
  others := by
    intro other different
    simp only [books, step_out_routes present, if_neg (Ne.symm different)]
  own := by
    have next : (system.step (.out route call)).1.routes[route]? = some (handler.out call).1 := by
      rw [step_out_routes present, if_pos rfl]
    refine ⟨_, _, books_count present, books_count next, ?_, ?_⟩
    · intro name
      have grows := OutputHandler.out_counts path call name
      have total := step_out_unanswered present call name
      simp only [books]
      omega
    · intro name absent
      have grows := OutputHandler.out_counts path call name
      have same := OutputHandler.out_counts_of_not_announced absent
      have total := step_out_unanswered present call name
      simp only [books]
      omega

/-- A call of `out` of one route. -/
theorem Counted.out (counted : Counted announced system)
    (present : system.routes[route]? = some handler) (call : Call α)
    (separate : ∀ name ∈ handler.announced call,
      ∀ other, announced other name → other = route) :
    Counted
      (fun other name =>
        announced other name ∨ other = route ∧ name ∈ handler.announced call)
      (system.step (.out route call)).1 where
  path := by
    intro other changed now
    rw [step_out_routes present] at now
    split at now
    · cases now
      obtain ⟨_, starts, _⟩ := OutputHandler.out_starts handler call
      exact starts.path.trans (counted.path route handler present)
    · exact counted.path other changed now
  known := by
    intro event member
    rcases List.mem_append.mp ((step_out_events present call).subset member) with old | new
    · exact counted.known event old
    · exact OutputHandler.known_out (counted.path route handler present) call event new
  sound := by
    have adds := step_out_adds present (counted.path route handler present) call
    exact counted.sound.add adds separate

end Calls

/-! ## Answers -/

section Answers

variable {announced : Nat → Str → Prop} {system : System α} {event : Event}

theorem step_answer (member : event ∈ system.waiting) (accepted : Bool) (eventId : EventID)
    (removable : Nat → Str → Bool) :
    system.step (.answer event accepted eventId removable) =
      let message := reply event accepted eventId
      ({ system with
          routes := (handleIncomingMsg system.routes message removable).1
          waiting := system.waiting.erase event },
        (handleIncomingMsg system.routes message removable).2) := by
  simp only [step, if_pos member]

theorem mem_handleIncomingMsg {routes : List (OutputHandler α)} {message : Message}
    {removable : Nat → Str → Bool} {effect : Effect α}
    (member : effect ∈ (handleIncomingMsg routes message removable).2) :
    ∃ (route : Nat) (handler : OutputHandler α), routes[route]? = some handler ∧
      effect ∈ (handler.handlePendingAttachments message (MessageHandler.receivedVars message)
        (removable route)).2 := by
  simp only [handleIncomingMsg, List.mem_flatten, List.mem_map, List.mem_mapIdx] at member
  rcases member with ⟨effects, ⟨result, ⟨route, bound, rfl⟩, rfl⟩, inside⟩
  exact ⟨route, routes[route], List.getElem?_eq_getElem bound, inside⟩

theorem step_answer_routes (member : event ∈ system.waiting) (accepted : Bool)
    (eventId : EventID) (removable : Nat → Str → Bool) (route : Nat) :
    let message := reply event accepted eventId
    (system.step (.answer event accepted eventId removable)).1.routes[route]? =
      system.routes[route]?.map fun handler =>
        (handler.handlePendingAttachments message (MessageHandler.receivedVars message)
          (removable route)).1 := by
  simp [step_answer member, handleIncomingMsg, Option.map_map, Function.comp_def]

theorem step_answer_events (member : event ∈ system.waiting) (accepted : Bool)
    (eventId : EventID) (removable : Nat → Str → Bool) :
    system.events.Perm
      (event :: (system.step (.answer event accepted eventId removable)).1.events) := by
  rw [step_answer member]
  exact ((List.perm_cons_erase member).append_left _).trans List.perm_middle

/-- All handlers count an answer to the event. -/
theorem step_answer_settles (known : Known event) (member : event ∈ system.waiting)
    (accepted : Bool) (eventId : EventID) (removable : Nat → Str → Bool) :
    Books.Settles (fun name => Carries name event) system.books
      (system.step (.answer event accepted eventId removable)).1.books where
  count := by
    intro route
    simp only [books, step_answer_routes member, Option.map_map]
    congr 1
    funext handler name
    exact (OutputHandler.handle_reply known handler accepted eventId (removable route)).2.1 name
  outstanding := by
    intro name
    simp only [books, unanswered]
    rw [(step_answer_events member accepted eventId removable).countP_eq, List.countP_cons]
    by_cases carried : Carries name event <;> simp [carried]

/-- The core answers one event. -/
theorem Counted.answer (counted : Counted announced system) (member : event ∈ system.waiting)
    (accepted : Bool) (eventId : EventID) (removable : Nat → Str → Bool) :
    Counted announced (system.step (.answer event accepted eventId removable)).1 where
  path := by
    intro route changed now
    rw [step_answer_routes member] at now
    obtain ⟨handler, present, rfl⟩ := Option.map_eq_some_iff.mp now
    have known := counted.known event (List.mem_append_right _ member)
    have kept := OutputHandler.handle_reply known handler accepted eventId (removable route)
    exact kept.1.trans (counted.path route handler present)
  known := by
    intro other old
    apply counted.known other
    rw [(step_answer_events member accepted eventId removable).mem_iff]
    exact List.mem_cons_of_mem _ old
  sound := by
    have known := counted.known event (List.mem_append_right _ member)
    exact counted.sound.settle (step_answer_settles known member accepted eventId removable)

/-- Only answers remove files, and the last event of a file is answered when it
is removed. -/
theorem Counted.removed (counted : Counted announced system) {op : Op α} {name : Str}
    (removed : Effect.removed name ∈ (system.step op).2) :
    (system.step op).1.unanswered name = 0 := by
  cases op with
  | out route call =>
      simp only [step] at removed
      split at removed
      · cases removed
      · exact absurd removed (OutputHandler.removed_notMem_out _ call name)
  | send message =>
      simp only [step] at removed
      split at removed <;> cases removed
  | lose message => cases removed
  | answer event accepted eventId removable =>
      by_cases member : event ∈ system.waiting
      · have known := counted.known event (List.mem_append_right _ member)
        have settles := step_answer_settles known member accepted eventId removable
        rw [step_answer member] at removed
        obtain ⟨route, handler, present, byHandler⟩ := mem_handleIncomingMsg removed
        obtain ⟨carried, one⟩ := (OutputHandler.handle_reply known handler accepted eventId
          (removable route)).2.2 name byHandler
        exact counted.sound.last settles (books_count present) one carried
      · simp only [step, if_neg member] at removed
        cases removed

end Answers

theorem step_send_events (system : System α) (message : Message) :
    (system.step (.send message)).1.events.Subperm system.events := by
  simp only [step]
  split
  next member =>
    apply List.Perm.subperm
    have outgoing := (List.perm_cons_erase member).filterMap Message.event?
    cases sent : message.event? with
    | none =>
        rw [List.filterMap_cons_none sent] at outgoing
        simpa [events, sent] using outgoing.symm.append_right system.waiting
    | some event =>
        rw [List.filterMap_cons_some sent] at outgoing
        let rest := (system.outgoing.erase message).filterMap Message.event?
        change List.Perm (rest ++ (system.waiting ++ [event])) _
        rw [← List.append_assoc]
        exact (List.perm_append_singleton event _).trans
          (outgoing.symm.append_right system.waiting)
  next => exact List.Subperm.refl _

theorem step_send_routes (system : System α) (message : Message) :
    (system.step (.send message)).1.routes = system.routes := by
  simp only [step]
  split <;> rfl

theorem step_lose_events (system : System α) (message : Message) :
    (system.step (.lose message)).1.events.Subperm system.events := by
  apply List.Sublist.subperm
  exact (List.erase_sublist.filterMap _).append_right _

end System

/-! ## Runs -/

section Runs

variable {routes : List Route} {ops : List (Op α)}

theorem Announces.append {route : Nat} {name : Str}
    (announces : Announces (engineMachine routes) ops route name) (more : List (Op α)) :
    Announces (engineMachine routes) (ops ++ more) route name := by
  rcases announces with ⟨before, call, after, rfl, handler⟩
  exact ⟨before, call, after ++ more, by simp, handler⟩

theorem announces_concat_iff {op : Op α} {route : Nat} {name : Str} :
    Announces (engineMachine routes) (ops ++ [op]) route name ↔
      Announces (engineMachine routes) ops route name ∨
        ∃ call, op = .out route call ∧ ∃ handler,
          ((engineMachine routes).run ops).state.routes[route]? = some handler ∧
            name ∈ handler.announced call := by
  constructor
  · rintro ⟨before, call, after, split, handler⟩
    rcases List.eq_nil_or_concat after with rfl | ⟨rest, last, rfl⟩
    · obtain ⟨rfl, equal⟩ := List.append_inj' split rfl
      exact Or.inr ⟨call, List.head_eq_of_cons_eq equal, handler⟩
    · rw [List.concat_eq_append, ← List.cons_append, ← List.append_assoc] at split
      exact Or.inl ⟨before, call, rest, List.append_inj_left' split rfl, handler⟩
  · rintro (announces | ⟨call, rfl, handler⟩)
    · exact announces.append [op]
    · exact ⟨ops, call, [], rfl, handler⟩

/-- An operation that is no call of `out` announces nothing. -/
theorem announces_concat_of_ne {op : Op α} (noCall : ∀ route call, op ≠ .out route call) :
    Announces (engineMachine routes) (ops ++ [op]) = Announces (engineMachine routes) ops := by
  funext route name
  rw [announces_concat_iff]
  simp [noCall]

theorem announces_concat_of_none {route : Nat} {call : Call α}
    (absent : ((engineMachine routes).run ops).state.routes[route]? = none) :
    Announces (engineMachine routes) (ops ++ [.out route call]) =
      Announces (engineMachine routes) ops := by
  funext other name
  rw [announces_concat_iff, eq_iff_iff, or_iff_left_iff_imp]
  rintro ⟨_, equal, handler, present, _⟩
  cases equal
  rw [absent] at present
  cases present

theorem announces_concat_of_some {route : Nat} {call : Call α} {handler : OutputHandler α}
    (present : ((engineMachine routes).run ops).state.routes[route]? = some handler) :
    Announces (engineMachine routes) (ops ++ [.out route call]) = fun other name =>
      Announces (engineMachine routes) ops other name ∨
        other = route ∧ name ∈ handler.announced call := by
  funext other name
  rw [announces_concat_iff, eq_iff_iff]
  apply or_congr_right
  constructor
  · rintro ⟨_, equal, found, announcing, member⟩
    cases equal
    rw [present] at announcing
    cases announcing
    exact ⟨rfl, member⟩
  · rintro ⟨rfl, member⟩
    exact ⟨call, rfl, handler, present, member⟩

theorem counted_fresh :
    System.Counted (Announces (α := α) (engineMachine routes) [])
      (engineMachine (α := α) routes).fresh.state := by
  have new : ∀ (route : Nat) (handler : OutputHandler α),
      (engineMachine (α := α) routes).fresh.state.routes[route]? = some handler →
        handler.path = tempPath ∧ handler.pendingAttachments = ∅ := by
    intro route handler present
    simp only [Machine.fresh, engineMachine, List.getElem?_map] at present
    obtain ⟨settings, _, rfl⟩ := Option.map_eq_some_iff.mp present
    exact ⟨rfl, rfl⟩
  exact
    { path := fun route handler present => (new route handler present).1
      known := by
        intro event member
        cases member
      sound := by
        apply Books.Sound.start
        · rintro route name ⟨before, call, after, split, _⟩
          simp at split
        · intro name
          rfl
        · intro route count name present
          obtain ⟨handler, found, rfl⟩ := Option.map_eq_some_iff.mp present
          change handler.pendingAttachments.getD name 0 = 0
          rw [(new route handler found).2]
          rfl }

/-- The handlers count the events of their files over a whole run. -/
theorem counted_run (separate : SeparateFiles (engineMachine routes) ops) :
    System.Counted (Announces (engineMachine routes) ops)
      ((engineMachine routes).run ops).state := by
  induction ops using List.reverseRecOn with
  | nil => exact counted_fresh
  | append_singleton ops op ih =>
      have counted := ih fun first second name one two =>
        separate first second name (one.append [op]) (two.append [op])
      rw [Machine.run_concat, Machine.extend_state]
      cases op with
      | out route call =>
          cases present : ((engineMachine routes).run ops).state.routes[route]? with
          | none =>
              rw [announces_concat_of_none present]
              simp only [engineMachine, System.step] at present ⊢
              rw [present]
              exact counted
          | some handler =>
              rw [announces_concat_of_some present]
              apply counted.out present call
              intro name member other announces
              apply separate other route name (announces.append _)
              rw [announces_concat_of_some present]
              exact Or.inr ⟨rfl, member⟩
      | send message =>
          rw [announces_concat_of_ne (by simp)]
          exact counted.quiet (System.step_send_routes _ _) (System.step_send_events _ _)
      | lose message =>
          rw [announces_concat_of_ne (by simp)]
          exact counted.quiet rfl (System.step_lose_events _ _)
      | answer event accepted eventId removable =>
          rw [announces_concat_of_ne (by simp)]
          by_cases member : event ∈ ((engineMachine routes).run ops).state.waiting
          · exact counted.answer member accepted eventId removable
          · simp only [engineMachine, System.step] at member ⊢
            rw [if_neg member]
            exact counted

/-- When no two routes write the same file, every file outlives the events that
carry it. -/
theorem files_outlive_of_separate (routes : List Route) (ops : List (Op α))
    (separate : SeparateFiles (engineMachine routes) ops) :
    FilesOutlive (engineMachine routes) ops := by
  rintro before op after rfl name removed event member carried
  have earlier : SeparateFiles (engineMachine routes) before := by
    intro first second file one two
    exact separate first second file (one.append _) (two.append _)
  have counted := counted_run earlier
  have zero := counted.removed removed
  rw [Machine.run_concat, Machine.extend_state] at member
  exact List.countP_eq_zero.mp zero event member (decide_eq_true carried)

end Runs

/-! ## Two routes -/

/-- A rule that asks for an image. -/
def imageAction : ActionInfo where
  module := "module_sms".toList
  key := "send".toList
  configuration := .ofList [("attachments".toList, "image".toList)]

def noon : IsoTime :=
  ⟨"20160131T120000".toList, by decide, by decide⟩

/-- A frame with motion. -/
def motionCall (imageId : UInt64) : Call Unit where
  img := ⟨(), imageId, 1⟩
  b := true
  imageTime := noon
  videoTime := noon
  opened := true
  stray := ⟨(), 0, 0⟩

/-- The image of a frame. -/
def imageOf (imageId : UInt64) : Str :=
  Attachment.image.file tempPath (motionCall imageId).img noon

/-- The event of a rule with the image of a frame. -/
def imageEvent (rule : RuleID) (imageId : UInt64) : Event :=
  ⟨rule, snprintf msgVarSize (attachmentVars .image (imageOf imageId))⟩

/-- A route with rules that ask for images. -/
def imageRoute (rules : List RuleID) : Route :=
  ⟨false, 20, .ofList (rules.map fun rule => (rule, imageAction))⟩

def twoRoutes : List Route :=
  [imageRoute [1, 2], imageRoute [3]]

/-- The two routes see a motion in two frames, and the core answers all
events. -/
def twoFrames : List (Op Unit) :=
  [.out 0 (motionCall 7), .out 1 (motionCall 8), .send (.msgEvent (imageEvent 1 7)),
    .send (.msgEvent (imageEvent 2 7)), .send (.msgEvent (imageEvent 3 8)),
    .answer (imageEvent 2 7) true 0 fun _ _ => true,
    .answer (imageEvent 3 8) false 0 fun _ _ => true,
    .answer (imageEvent 1 7) true 0 fun _ _ => true]

/-- The files that the run removes. -/
def removedFiles (routes : List Route) (ops : List (Op Unit)) : List Str :=
  ((engineMachine routes).run ops).trace.filterMap fun item =>
    match item.2 with
    | .removed name => some name
    | _ => none

theorem announced_twoFrames {route : Nat} {name : Str}
    (announces : Announces (engineMachine twoRoutes) twoFrames route name) :
    route = 0 ∧ name = imageOf 7 ∨ route = 1 ∧ name = imageOf 8 := by
  rcases announces with ⟨before, call, after, split, handler, present, member⟩
  rcases before with _ | ⟨first, _ | ⟨second, rest⟩⟩
  · obtain ⟨⟨rfl, rfl⟩, _⟩ : (0 = route ∧ motionCall 7 = call) ∧ _ := by
      simpa [twoFrames] using split
    left
    cases present
    have files : (addRoute (imageRoute [1, 2])).announced (motionCall 7) = [imageOf 7] := by
      decide +kernel
    exact ⟨rfl, List.mem_singleton.mp (files ▸ member)⟩
  · obtain ⟨rfl, ⟨rfl, rfl⟩, _⟩ : .out 0 (motionCall 7) = first ∧
        (1 = route ∧ motionCall 8 = call) ∧ _ := by
      simpa [twoFrames] using split
    right
    have second : ((engineMachine twoRoutes).run [.out 0 (motionCall 7)]).state.routes[1]? =
        some (addRoute (imageRoute [3])) := rfl
    rw [second] at present
    cases present
    have files : (addRoute (imageRoute [3])).announced (motionCall 8) = [imageOf 8] := by
      decide +kernel
    exact ⟨rfl, List.mem_singleton.mp (files ▸ member)⟩
  · have later : Op.out route call ∈ twoFrames.drop 2 := by
      rw [split]
      simp
    simp [twoFrames] at later

theorem separateFiles_twoFrames : SeparateFiles (engineMachine twoRoutes) twoFrames := by
  intro first second name one two
  have distinct : imageOf 7 ≠ imageOf 8 := by decide
  rcases announced_twoFrames one with ⟨rfl, rfl⟩ | ⟨rfl, rfl⟩
  · rcases announced_twoFrames two with ⟨rfl, _⟩ | ⟨_, equal⟩
    · rfl
    · exact absurd equal distinct
  · rcases announced_twoFrames two with ⟨_, equal⟩ | ⟨rfl, _⟩
    · exact absurd equal.symm distinct
    · rfl

/-- Both files are removed, each after its last event. -/
theorem files_outlive_two_frames :
    removedFiles twoRoutes twoFrames = [imageOf 8, imageOf 7] ∧
      FilesOutlive (engineMachine twoRoutes) twoFrames := by
  constructor
  · decide +kernel
  · exact files_outlive_of_separate twoRoutes twoFrames separateFiles_twoFrames

/-- The two routes see a motion in the same frame. -/
def sameFrame : List (Op Unit) :=
  [.out 0 (motionCall 7), .out 1 (motionCall 7), .send (.msgEvent (imageEvent 1 7)),
    .send (.msgEvent (imageEvent 2 7)), .send (.msgEvent (imageEvent 3 7))]

/-- The first answer removes the image of the frame, although the events of two
more rules carry it and were sent before. -/
theorem file_removed_early :
    ¬ FilesOutlive (engineMachine twoRoutes)
      (sameFrame ++ [.answer (imageEvent 2 7) true 0 fun _ _ => true]) := by
  intro outlive
  have removed : Effect.removed (imageOf 7) ∈ ((engineMachine twoRoutes).step
      ((engineMachine twoRoutes).run sameFrame).state
      (.answer (imageEvent 2 7) true 0 fun _ _ => true)).2 := by
    decide +kernel
  have waiting : imageEvent 1 7 ∈ ((engineMachine twoRoutes).run
      (sameFrame ++ [.answer (imageEvent 2 7) true 0 fun _ _ => true])).state.waiting := by
    decide +kernel
  apply outlive sameFrame _ [] rfl (imageOf 7) removed (imageEvent 1 7)
  · exact List.mem_append_right _ waiting
  · decide +kernel

end Sentri.Modules.Video
