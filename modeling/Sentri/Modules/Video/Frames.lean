import Sentri.Modules.Video.Files
import Sentri.Modules.Video.Images
import Sentri.Modules.Video.Routes

/-!
# From frames to events

The main loop of the video module takes a frame of the camera, lets the detector
look for motion, and passes the frame to one route after the other: a route keeps
the rectangles in its own regions and tells its output handler whether some are
left.  Meanwhile writers send their events, and the core answers them.

For a rule that asks for images one event is given to a writer for each frame with a
motion in its own region, and a rule that asks for an attachment gets no event without
one.  What the writers were given has been sent, is lost, or is still to be sent.
-/

namespace Sentri.Modules.Video.Engine

open Sentri.Data Sentri.LibModule Sentri.Text Sentri.Transition

/-! ## The main loop -/

/-- A rectangle around a contour that the detector has found. -/
structure Rect where
  x : Int
  y : Int
  width : Int
  height : Int
  deriving DecidableEq

/-- A frame of the camera, resized, with what the detector finds in it. -/
structure Frame (α : Type) where
  image : Image α
  rects : List Rect

section

variable {γ α : Type}

/- `boost::geometry::intersects`, and the drawing of rectangles into a frame. -/
variable (intersects : Rect → γ → Bool) (highlight : Image α → List Rect → Image α)

/-- Remove the rectangles that do not intersect one of the geometries. -/
def applyCollider (geometry : List γ) (rects : List Rect) : List Rect :=
  rects.filter fun rect => geometry.any (intersects rect)

/-- The rectangles that are left to a route. -/
def collide (colliders : List (List γ)) (rects : List Rect) : List Rect :=
  colliders.foldl (fun rects geometry => applyCollider intersects geometry rects) rects

/-- The call of the output handler of a route; the rest of it, as `outside` has it,
does not depend on the frame. -/
def routeCall (route : Pipeline γ α) (frame : Frame α) (outside : Call α) : Call α :=
  let nRects := collide intersects route.colliders frame.rects
  { outside with
      img := if route.highlighter then highlight frame.image nRects else frame.image
      b := decide (nRects.length > 0) }

/-- The engine with the frame it is at, and the number of routes that have had it. -/
structure Loop (α : Type) where
  system : System α
  current : Option (Frame α × Nat)

/-- What can happen next. -/
inductive LoopOp (α : Type) where
  /-- The camera has a frame or none. -/
  | retrieve (frame : Option (Frame α))
  /-- The next route gets the frame. -/
  | route (outside : Call α)
  /-- A writer or the core does something. -/
  | core (op : Op α)

/-- A frame that a route has had, with the call of its output handler, what the call
did, and the messages that are to be sent on account of it. -/
structure Handling (α : Type) where
  route : Nat
  frame : Frame α
  call : Call α
  effects : List (Effect α)
  messages : List Message

inductive LoopEvent (α : Type) where
  | took (frame : Frame α)
  | handled (handling : Handling α)
  | sent (message : Message)
  | lost (message : Message)

/-- What can be seen of a writer: it sends a message of those that are to be sent, or fails. -/
def coreEvents (system : System α) : Op α → List (LoopEvent α)
  | .send message => if message ∈ system.outgoing then [.sent message] else []
  | .lose message => if message ∈ system.outgoing then [.lost message] else []
  | _ => []

namespace Loop

/-- The route gets the frame. -/
def handle (routing : Routing γ α) (loop : Loop α) (frame : Frame α) (i : Nat)
    (outside : Call α) : Loop α × List (LoopEvent α) :=
  match routing.routes[i]?, loop.system.routes[i]? with
  | some route, some handler =>
      let call := routeCall intersects highlight route frame outside
      let (system, effects) := loop.system.step (.out i call)
      (⟨system, if i + 1 < routing.routes.length then some (frame, i + 1) else none⟩,
        [.handled ⟨i, frame, call, effects, effects.flatMap (handler.messages call)⟩])
  | _, _ => ({ loop with current := none }, [])

def step (routing : Routing γ α) (loop : Loop α) : LoopOp α → Loop α × List (LoopEvent α)
  | .retrieve none => (loop, [])
  | .retrieve (some frame) =>
      if loop.current.isNone && routing.enabled then
        ({ loop with current := some (frame, 0) }, [.took frame])
      else
        (loop, [])
  | .route outside =>
      match loop.current with
      | none => (loop, [])
      | some (frame, i) => loop.handle intersects highlight routing frame i outside
  | .core op =>
      match op with
      | .out _ _ => (loop, [])
      | .send _ | .lose _ | .answer _ _ _ _ =>
          ({ loop with system := (loop.system.step op).1 }, coreEvents loop.system op)

end Loop

/-- The engine with the routes that were made of the rules. -/
def loopMachine (routing : Routing γ α) : Machine (Loop α) (LoopOp α) (LoopEvent α) where
  start := ⟨⟨routing.routes.map fun route => route.output, [], []⟩, none⟩
  step := Loop.step intersects highlight routing

end

/-- The frames that the loop took. -/
def taken {α : Type} (trace : List (LoopOp α × LoopEvent α)) : List (Frame α) :=
  trace.filterMap fun item =>
    match item.2 with
    | .took frame => some frame
    | _ => none

/-- What the routes did with them. -/
def handled {α : Type} (trace : List (LoopOp α × LoopEvent α)) : List (Handling α) :=
  trace.filterMap fun item =>
    match item.2 with
    | .handled handling => some handling
    | _ => none

/-- The messages that were sent. -/
def sentMessages {α : Type} (trace : List (LoopOp α × LoopEvent α)) : List Message :=
  trace.filterMap fun item =>
    match item.2 with
    | .sent message => some message
    | _ => none

/-- The messages that were lost with their writers. -/
def lostMessages {α : Type} (trace : List (LoopOp α × LoopEvent α)) : List Message :=
  trace.filterMap fun item =>
    match item.2 with
    | .lost message => some message
    | _ => none

/-- What one route did with them. -/
def handledBy {α : Type} (route : Nat) (trace : List (LoopOp α × LoopEvent α)) :
    List (Handling α) :=
  (handled trace).filter fun handling => handling.route = route

/-! ## Regions -/

section

variable {γ : Type} (readWkt : GeometryType → Str → Option γ) (intersects : Rect → γ → Bool)

/-- The geometry that a text describes. -/
def geometryOf (text : Str) : Option γ :=
  (GeometryType.all.find? fun type => type.keyword.isPrefixOf text).bind fun type =>
    readWkt type text

/-- A rectangle lies in a region: it intersects one of the listed geometries, or none
is listed. -/
def inRegion (rio : Str) (rect : Rect) : Bool :=
  rio.isEmpty || (rio.splitOn '#').any fun text =>
    (geometryOf readWkt text).any (intersects rect)

/-- Something has moved in the region of an event. -/
def moves (event : EventInfo) (rects : List Rect) : Bool :=
  rects.any (inRegion readWkt intersects (event.configuration.getD "collider_rio".toList []))

theorem readGeometries_any {texts : List Str} {geometry : List γ}
    (read : readGeometries readWkt texts = .ok geometry) (rect : Rect) :
    geometry.any (intersects rect) =
      texts.any fun text => (geometryOf readWkt text).any (intersects rect) := by
  induction texts generalizing geometry with
  | nil =>
      cases read
      rfl
  | cons text texts ih =>
      rw [readGeometries] at read
      cases first : readGeometry readWkt text with
      | error ending =>
          rw [first] at read
          cases read
      | ok here =>
          rw [first] at read
          cases rest : readGeometries readWkt texts with
          | error ending =>
              rw [rest] at read
              cases read
          | ok others =>
              rw [rest] at read
              cases read
              have one : here.any (intersects rect) =
                  (geometryOf readWkt text).any (intersects rect) := by
                rw [geometryOf]
                rw [readGeometry] at first
                split at first
                · rename_i type keyword
                  split at first
                  · rename_i geometry isGeometry
                    cases first
                    simp [keyword, isGeometry]
                  · cases first
                · rename_i noKeyword
                  cases first
                  simp [noKeyword]
              rw [List.any_append, one, ih rest, List.any_cons]

/-- A route keeps a rectangle exactly if something has moved in the region. -/
theorem collide_pos {event : EventInfo} {colliders : List (List γ)}
    (read : readColliders readWkt event.configuration = .ok colliders) (rects : List Rect) :
    decide ((collide intersects colliders rects).length > 0) =
      moves readWkt intersects event rects := by
  rw [readColliders] at read
  rw [moves]
  generalize event.configuration.getD "collider_rio".toList [] = rio at read ⊢
  cases rio with
  | nil =>
      cases read
      cases rects with
      | nil => rfl
      | cons rect rects => simp [collide, inRegion]
  | cons c rio =>
      rw [if_pos (List.cons_ne_nil c rio)] at read
      cases geometries : readGeometries readWkt ((c :: rio).splitOn '#') with
      | error ending =>
          rw [geometries] at read
          cases read
      | ok geometry =>
          rw [geometries] at read
          cases read
          have same : ∀ rect, geometry.any (intersects rect) =
              inRegion readWkt intersects (c :: rio) rect := by
            intro rect
            rw [readGeometries_any readWkt intersects geometries, inRegion, List.isEmpty_cons,
              Bool.false_or]
          rw [Bool.eq_iff_iff, decide_eq_true_iff, gt_iff_lt, List.length_pos_iff_exists_mem,
            List.any_eq_true]
          simp only [collide, List.foldl_cons, List.foldl_nil, applyCollider, List.mem_filter,
            same]

end

/-! ## Announcements -/

/-- A message is the event of a rule with an attachment. -/
def announces (attachment : Attachment) (id : RuleID) (message : Message) : Bool :=
  message.event?.any fun event =>
    event.ruleId = id && attachment.key.isPrefixOf event.vars.text

theorem key_image : Attachment.image.key = ['i', 'm', 'a', 'g', 'e'] := by decide

theorem key_video : Attachment.video.key = ['v', 'i', 'd', 'e', 'o'] := by decide

/-- The variables of an attachment start with its own key. -/
theorem key_isPrefixOf (attachment other : Attachment) (name : Str) :
    attachment.key.isPrefixOf (snprintf msgVarSize (other.key ++ '=' :: name)).text =
      decide (attachment = other) := by
  have size : msgVarSize - 1 = msgVarSize - 6 + 5 := by decide
  have text : ∀ c₁ c₂ c₃ c₄ c₅ : Char, c₁ ≠ nul → c₂ ≠ nul → c₃ ≠ nul → c₄ ≠ nul → c₅ ≠ nul →
      ∃ rest, (snprintf msgVarSize ([c₁, c₂, c₃, c₄, c₅] ++ '=' :: name)).text =
        [c₁, c₂, c₃, c₄, c₅] ++ rest := by
    intro c₁ c₂ c₃ c₄ c₅ h₁ h₂ h₃ h₄ h₅
    refine ⟨(cStr ('=' :: name)).take (msgVarSize - 6), ?_⟩
    change (cStr _).take (msgVarSize - 1) = _
    rw [size]
    simp [cStr, h₁, h₂, h₃, h₄, h₅]
  cases other with
  | image =>
      obtain ⟨rest, equal⟩ := text 'i' 'm' 'a' 'g' 'e' (by decide) (by decide) (by decide)
        (by decide) (by decide)
      rw [key_image, equal]
      cases attachment with
      | image =>
          rw [key_image]
          rfl
      | video =>
          rw [key_video]
          rfl
  | video =>
      obtain ⟨rest, equal⟩ := text 'v' 'i' 'd' 'e' 'o' (by decide) (by decide) (by decide)
        (by decide) (by decide)
      rw [key_video, equal]
      cases attachment with
      | image =>
          rw [key_image]
          rfl
      | video =>
          rw [key_video]
          rfl

section

variable {α : Type} {handler : OutputHandler α} {call : Call α} {id : RuleID}

theorem nodup_asking (map : RuleMap) (attachment : Attachment) :
    (map.asking attachment).Nodup := by
  have distinct : (map.toList.map Prod.fst).Nodup := by
    rw [Std.ExtTreeMap.map_fst_toList_eq_keys]
    exact Std.ExtTreeMap.nodup_keys
  exact distinct.sublist (List.filter_sublist.map Prod.fst)

theorem countP_announce (attachment other : Attachment) (name : Str) :
    (handler.announce other name).countP (announces attachment id) =
      if attachment = other ∧ id ∈ handler.map.asking other then 1 else 0 := by
  have each : announces attachment id ∘ (fun rule =>
      MessageHandler.sendEventMessage rule (other.key ++ '=' :: name)) =
        fun rule => rule == id && decide (attachment = other) := by
    funext rule
    change (decide (rule = id) && _) = _
    rw [key_isPrefixOf]
    rfl
  rw [OutputHandler.announce, List.countP_map, each]
  by_cases same : attachment = other
  · simp only [same, decide_true, Bool.and_true, true_and]
    by_cases asks : id ∈ handler.map.asking other
    · rw [if_pos asks]
      exact List.count_eq_one_of_mem (nodup_asking handler.map other) asks
    · rw [if_neg asks]
      exact List.count_eq_zero_of_not_mem asks
  · simp [same]

theorem countP_plainEvents (attachment : Attachment) :
    (handler.plainEvents.flatMap (handler.messages call)).countP (announces attachment id) =
      0 := by
  rw [List.countP_eq_zero]
  intro message member
  obtain ⟨effect, plain, sent⟩ := List.mem_flatMap.mp member
  obtain ⟨rule, _, rfl⟩ := List.mem_map.mp plain
  rw [List.mem_singleton.mp sent]
  cases attachment with
  | image =>
      rw [announces, key_image]
      simp [MessageHandler.sendEventMessage, Message.event?, snprintf, cStr]
  | video =>
      rw [announces, key_video]
      simp [MessageHandler.sendEventMessage, Message.event?, snprintf, cStr]

/-- Recording announces no image. -/
theorem countP_record (recorder : OutputHandler α) :
    ((recorder.record call).2.flatMap (handler.messages call)).countP (announces .image id) =
      0 := by
  rw [List.countP_eq_zero]
  intro message member
  obtain ⟨effect, recorded, sent⟩ := List.mem_flatMap.mp member
  have isVideo := OutputHandler.attachment_of_mem_record recorded
  cases effect with
  | sent => cases isVideo
  | removed => cases isVideo
  | imageWriter => cases isVideo
  | videoWriter name block =>
      change message ∈ handler.writeVideo call.opened name at sent
      by_cases opened : call.opened = true
      · rw [OutputHandler.writeVideo, if_pos opened] at sent
        have unannounced : (handler.announce .video name).countP (announces .image id) = 0 := by
          rw [countP_announce, if_neg (fun both => Attachment.noConfusion both.1)]
        exact List.countP_eq_zero.mp unannounced message sent
      · rw [OutputHandler.writeVideo, if_neg opened, List.mem_singleton] at sent
        rw [sent]
        simp [announces, MessageHandler.log, Message.event?]

/-- A call announces the image of a rule once if it is to write images, some rectangles
are left and the rule asks for images, and else not at all. -/
theorem countP_out :
    ((handler.out call).2.flatMap (handler.messages call)).countP (announces .image id) =
      if (handler.image && call.b) = true ∧ id ∈ handler.map.asking .image then 1 else 0 := by
  have snapshots : ∀ recorder : OutputHandler α, recorder.image = handler.image →
      ((recorder.snapshot call).2.flatMap (handler.messages call)).countP (announces .image id) =
        if (handler.image && call.b) = true ∧ id ∈ handler.map.asking .image then 1 else 0 := by
    intro recorder image
    by_cases due : (handler.image && call.b) = true
    · rw [OutputHandler.snapshot, image, if_pos due, OutputHandler.forkImageWriter,
        List.flatMap_singleton]
      change (handler.announce .image _).countP _ = _
      rw [countP_announce]
      simp [due]
    · rw [OutputHandler.snapshot, image, if_neg due, if_neg (fun both => due both.1)]
      rfl
  have plain : ∀ recorder : OutputHandler α, recorder.map = handler.map →
      (recorder.plainEvents.flatMap (handler.messages call)).countP (announces .image id) = 0 := by
    intro recorder map
    have same : recorder.plainEvents = handler.plainEvents := by
      rw [OutputHandler.plainEvents, OutputHandler.plainEvents, map]
    rw [same]
    exact countP_plainEvents .image
  by_cases writing : handler.write = true
  · have recorded := OutputHandler.record_demand handler call
    have image : (handler.record call).1.image = handler.image :=
      congrArg (fun demand => demand.2.2) recorded
    have map := (OutputHandler.snapshot_demand (handler.record call).1 call).trans recorded
    simp only [OutputHandler.out, if_pos writing, List.flatMap_append, List.countP_append,
      countP_record, snapshots _ image, plain _ (congrArg Prod.fst map), Nat.zero_add,
      Nat.add_zero]
  · have map := OutputHandler.snapshot_demand handler call
    simp only [OutputHandler.out, if_neg writing, List.flatMap_append, List.countP_append,
      List.flatMap_nil, List.countP_nil, snapshots handler rfl, plain _ (congrArg Prod.fst map),
      Nat.zero_add, Nat.add_zero]

end

/-! ## Invariants of the loop -/

/-- The output handlers are still those of the routes. -/
structure Same {γ α : Type} (routing : Routing γ α) (system : System α) : Prop where
  length_eq : system.routes.length = routing.routes.length
  demand : ∀ (i : Nat) handler route, system.routes[i]? = some handler →
    routing.routes[i]? = some route → handler.demand = route.output.demand

/-- Every frame with motion in the buffer of a route was handled by it. -/
def Filmed {α : Type} (route : Nat) (handler : OutputHandler α)
    (trace : List (LoopOp α × LoopEvent α)) : Prop :=
  ∀ img ∈ handler.buf.elements,
    ∃ past ∈ handledBy route trace, past.call.b = true ∧ past.call.img = img

section

variable {γ α : Type} (intersects : Rect → γ → Bool) (highlight : Image α → List Rect → Image α)

/-- A frame is handled as the source has it, by the handler of a route with its frames. -/
def Proper (routing : Routing γ α) (before : List (LoopOp α × LoopEvent α))
    (handling : Handling α) : Prop :=
  ∃ route handler outside, routing.routes[handling.route]? = some route ∧
    handler.demand = route.output.demand ∧ Filmed handling.route handler before ∧
    handling.call = routeCall intersects highlight route handling.frame outside ∧
    handling.effects = (handler.out handling.call).2 ∧
    handling.messages = handling.effects.flatMap (handler.messages handling.call)

/-- The routes have had all frames that were taken, and some of them already the one
the loop is at. -/
def Orderly (routing : Routing γ α) (current : Option (Frame α × Nat))
    (trace : List (LoopOp α × LoopEvent α)) : Prop :=
  match current with
  | none => ∀ i < routing.routes.length, (handledBy i trace).map Handling.frame = taken trace
  | some (frame, next) => ∃ earlier, taken trace = earlier ++ [frame] ∧
      ∀ i < routing.routes.length, (handledBy i trace).map Handling.frame =
        if i < next then earlier ++ [frame] else earlier

structure Conducted (routing : Routing γ α)
    (run : Run (Loop α) (LoopOp α) (LoopEvent α)) : Prop where
  same : Same routing run.state.system
  filmed : ∀ (i : Nat) handler, run.state.system.routes[i]? = some handler →
    Filmed i handler run.trace
  proper : Throughout (fun before item => ∀ handling, item.2 = .handled handling →
    Proper intersects highlight routing before handling) run.trace
  orderly : Orderly routing run.state.current run.trace

variable {routing : Routing γ α}

/-! ### Other steps -/

theorem handlePendingAttachments_keeps (handler : OutputHandler α) (message : Message)
    (vars : StrMap) (removable : Str → Bool) :
    (handler.handlePendingAttachments message vars removable).1.demand = handler.demand ∧
      (handler.handlePendingAttachments message vars removable).1.buf = handler.buf := by
  unfold OutputHandler.handlePendingAttachments
  split
  · exact ⟨rfl, rfl⟩
  · exact ⟨rfl, rfl⟩

/-- What writers and the core do leaves the frames and the rules of a handler alone. -/
theorem step_core (system : System α) {op : Op α} (noCall : ∀ route call, op ≠ .out route call) :
    (system.step op).1.routes.map (fun handler => (handler.demand, handler.buf)) =
      system.routes.map fun handler => (handler.demand, handler.buf) := by
  apply List.ext_getElem?
  intro i
  rw [List.getElem?_map, List.getElem?_map]
  cases op with
  | out route call => exact absurd rfl (noCall route call)
  | send message =>
      simp only [System.step]
      split
      · rfl
      · rfl
  | lose message => rfl
  | answer event accepted eventId removable =>
      by_cases member : event ∈ system.waiting
      · rw [System.step_answer_routes member, Option.map_map]
        congr 1
        funext handler
        have kept := handlePendingAttachments_keeps handler (reply event accepted eventId)
          (MessageHandler.receivedVars (reply event accepted eventId)) (removable i)
        exact Prod.ext kept.1 kept.2
      · simp only [System.step, if_neg member]

namespace Conducted

variable {intersects highlight} {run : Run (Loop α) (LoopOp α) (LoopEvent α)}

theorem taken_coreEvents (trace : List (LoopOp α × LoopEvent α)) (system : System α)
    (op : Op α) :
    taken (trace ++ (coreEvents system op).map fun event => (.core op, event)) = taken trace := by
  unfold coreEvents
  split
  · split <;> simp [taken]
  · split <;> simp [taken]
  · simp

theorem handled_coreEvents (trace : List (LoopOp α × LoopEvent α)) (system : System α)
    (op : Op α) :
    handled (trace ++ (coreEvents system op).map fun event => (.core op, event)) =
      handled trace := by
  unfold coreEvents
  split
  · split <;> simp [handled]
  · split <;> simp [handled]
  · simp

theorem not_handled_coreEvents {system : System α} {op : Op α} {event : LoopEvent α}
    (member : event ∈ coreEvents system op) (handling : Handling α) :
    event ≠ .handled handling := by
  rintro rfl
  unfold coreEvents at member
  split at member
  · split at member <;> simp at member
  · split at member <;> simp at member
  · cases member

/-- A writer or the core does something. -/
theorem core (conducted : Conducted intersects highlight routing run) (op : Op α)
    (noCall : ∀ route call, op ≠ .out route call) :
    Conducted intersects highlight routing
      ⟨{ run.state with system := (run.state.system.step op).1 },
        run.trace ++ (coreEvents run.state.system op).map fun event => (.core op, event)⟩ := by
  have kept := step_core run.state.system noCall
  have found : ∀ (i : Nat) next, (run.state.system.step op).1.routes[i]? = some next →
      ∃ handler, run.state.system.routes[i]? = some handler ∧ next.demand = handler.demand ∧
        next.buf = handler.buf := by
    intro i next present
    have here := congrArg (fun pairs => pairs[i]?) kept
    simp only [List.getElem?_map, present, Option.map_some] at here
    obtain ⟨handler, there, equal⟩ := Option.map_eq_some_iff.mp here.symm
    exact ⟨handler, there, (congrArg Prod.fst equal).symm, (congrArg Prod.snd equal).symm⟩
  have same : ∀ i, handledBy i (run.trace ++
      (coreEvents run.state.system op).map fun event => (.core op, event)) =
        handledBy i run.trace := by
    intro i
    rw [handledBy, handled_coreEvents, handledBy]
  constructor
  · constructor
    · have lengths := congrArg List.length kept
      rw [List.length_map, List.length_map] at lengths
      exact lengths.trans conducted.same.length_eq
    · intro i next route present isRoute
      obtain ⟨handler, there, demand, _⟩ := found i next present
      exact demand.trans (conducted.same.demand i handler route there isRoute)
  · intro i next present
    obtain ⟨handler, there, _, buf⟩ := found i next present
    rw [Filmed, buf, same]
    exact conducted.filmed i handler there
  · apply conducted.proper.append_of_split
    intro first item rest split handling isHandled
    have member : item ∈ (coreEvents run.state.system op).map fun event => (.core op, event) := by
      simp [split]
    obtain ⟨event, inEvents, rfl⟩ := List.mem_map.mp member
    exact absurd isHandled (not_handled_coreEvents inEvents handling)
  · have order := conducted.orderly
    unfold Orderly at order ⊢
    simp only [taken_coreEvents, same]
    exact order

theorem handledBy_took (i : Nat) (trace : List (LoopOp α × LoopEvent α)) (op : LoopOp α)
    (frame : Frame α) : handledBy i (trace ++ [(op, .took frame)]) = handledBy i trace := by
  simp [handledBy, handled]

theorem taken_took (trace : List (LoopOp α × LoopEvent α)) (op : LoopOp α) (frame : Frame α) :
    taken (trace ++ [(op, .took frame)]) = taken trace ++ [frame] := by
  simp [taken]

theorem handledBy_handled (i : Nat) (trace : List (LoopOp α × LoopEvent α)) (op : LoopOp α)
    (handling : Handling α) :
    handledBy i (trace ++ [(op, .handled handling)]) =
      handledBy i trace ++ if handling.route = i then [handling] else [] := by
  by_cases same : handling.route = i <;> simp [handledBy, handled, same]

theorem taken_handled (trace : List (LoopOp α × LoopEvent α)) (op : LoopOp α)
    (handling : Handling α) : taken (trace ++ [(op, .handled handling)]) = taken trace := by
  simp [taken]

/-- The loop takes a frame when the routes have had all others. -/
theorem took (conducted : Conducted intersects highlight routing run)
    (idle : run.state.current = none) (op : LoopOp α) (frame : Frame α) :
    Conducted intersects highlight routing
      ⟨{ run.state with current := some (frame, 0) }, run.trace ++ [(op, .took frame)]⟩ := by
  have order := conducted.orderly
  rw [idle] at order
  constructor
  · exact conducted.same
  · intro i handler present
    rw [Filmed, handledBy_took]
    exact conducted.filmed i handler present
  · apply conducted.proper.concat
    intro handling isHandled
    cases isHandled
  · refine ⟨taken run.trace, taken_took _ _ _, ?_⟩
    intro i below
    rw [handledBy_took, if_neg (Nat.not_lt_zero i)]
    exact order i below

/-- A handler keeps its rules. -/
theorem same_out {system : System α} (same : Same routing system) {i : Nat}
    {handler : OutputHandler α} (present : system.routes[i]? = some handler) (call : Call α) :
    Same routing (system.step (.out i call)).1 := by
  constructor
  · rw [System.step_out present]
    exact (List.length_set).trans same.length_eq
  · intro j next other there isOther
    rw [System.step_out_routes present] at there
    by_cases here : i = j
    · subst here
      rw [if_pos rfl] at there
      cases there
      exact (handler.out_demand call).trans (same.demand i handler other present isOther)
    · rw [if_neg here] at there
      exact same.demand j next other there isOther

/-- A frame with motion comes into the buffer of the route that has it. -/
theorem filmed_out {system : System α} {trace : List (LoopOp α × LoopEvent α)}
    (filmed : ∀ (i : Nat) handler, system.routes[i]? = some handler → Filmed i handler trace)
    {handling : Handling α} {handler : OutputHandler α}
    (present : system.routes[handling.route]? = some handler) (op : LoopOp α) (j : Nat)
    (next : OutputHandler α)
    (there : (system.step (.out handling.route handling.call)).1.routes[j]? = some next) :
    Filmed j next (trace ++ [(op, .handled handling)]) := by
  rw [System.step_out_routes present] at there
  rw [Filmed, handledBy_handled]
  by_cases here : handling.route = j
  · subst here
    rw [if_pos rfl] at there
    cases there
    intro img member
    rcases OutputHandler.mem_buf_out member with old | ⟨motion, rfl⟩
    · obtain ⟨past, pastMember, facts⟩ := filmed handling.route handler present img old
      exact ⟨past, List.mem_append_left _ pastMember, facts⟩
    · exact ⟨handling, List.mem_append_right _ (by simp), motion, rfl⟩
  · rw [if_neg here] at there
    intro img member
    obtain ⟨past, pastMember, facts⟩ := filmed j next there img member
    exact ⟨past, List.mem_append_left _ pastMember, facts⟩

/-- The loop goes on to the next route, or waits for a frame after the last one. -/
theorem orderly_handled {handling : Handling α} {trace : List (LoopOp α × LoopEvent α)}
    (orderly : Orderly routing (some (handling.frame, handling.route)) trace) (op : LoopOp α) :
    Orderly routing
      (if handling.route + 1 < routing.routes.length then
        some (handling.frame, handling.route + 1) else none)
      (trace ++ [(op, .handled handling)]) := by
  obtain ⟨earlier, takenEq, handledEq⟩ := orderly
  have counted : ∀ j < routing.routes.length,
      (handledBy j (trace ++ [(op, .handled handling)])).map Handling.frame =
        if j < handling.route + 1 then earlier ++ [handling.frame] else earlier := by
    intro j within
    rw [handledBy_handled, List.map_append, handledEq j within]
    rcases Nat.lt_trichotomy j handling.route with less | same | more
    · rw [if_pos less, if_pos (Nat.lt_succ_of_lt less), if_neg (Nat.ne_of_gt less)]
      simp
    · rw [if_neg (Nat.not_lt_of_ge same.ge), if_pos (Nat.lt_succ_of_le same.le),
        if_pos same.symm]
      rfl
    · rw [if_neg (Nat.not_lt_of_gt more), if_neg (Nat.not_lt_of_ge more),
        if_neg (Nat.ne_of_lt more)]
      simp
  by_cases left : handling.route + 1 < routing.routes.length
  · rw [if_pos left]
    exact ⟨earlier, (taken_handled _ _ _).trans takenEq, counted⟩
  · rw [if_neg left]
    intro j within
    have last : j < handling.route + 1 := Nat.lt_of_lt_of_le within (Nat.le_of_not_lt left)
    exact (counted j within).trans ((if_pos last).trans
      ((taken_handled _ _ _).trans takenEq).symm)

/-- The next route has the frame. -/
theorem handle (conducted : Conducted intersects highlight routing run) {frame : Frame α} {i : Nat}
    (busy : run.state.current = some (frame, i)) (op : LoopOp α) (outside : Call α) :
    Conducted intersects highlight routing
      ⟨(run.state.handle intersects highlight routing frame i outside).1,
        run.trace ++ (run.state.handle intersects highlight routing frame i outside).2.map
          fun event => (op, event)⟩ := by
  have order := conducted.orderly
  rw [busy] at order
  cases isRoute : routing.routes[i]? with
  | none =>
      have beyond := List.getElem?_eq_none_iff.mp isRoute
      have finished : run.state.handle intersects highlight routing frame i outside =
          ({ run.state with current := none }, []) := by
        simp only [Loop.handle, isRoute]
      obtain ⟨earlier, takenEq, handledEq⟩ := order
      rw [finished, List.map_nil, List.append_nil]
      refine ⟨conducted.same, conducted.filmed, conducted.proper, ?_⟩
      intro j below
      rw [takenEq, handledEq j below, if_pos (below.trans_le beyond)]
  | some route =>
      have below := (List.getElem?_eq_some_iff.mp isRoute).1
      obtain ⟨handler, present⟩ : ∃ handler, run.state.system.routes[i]? = some handler :=
        ⟨_, List.getElem?_eq_getElem (conducted.same.length_eq ▸ below)⟩
      let call := routeCall intersects highlight route frame outside
      let handling : Handling α := ⟨i, frame, call, (handler.out call).2,
        (handler.out call).2.flatMap (handler.messages call)⟩
      have made : run.state.handle intersects highlight routing frame i outside =
          (⟨(run.state.system.step (.out i call)).1,
            if i + 1 < routing.routes.length then some (frame, i + 1) else none⟩,
            [.handled handling]) := by
        simp only [Loop.handle, isRoute, present, handling, call, System.step_out present]
      rw [made, List.map_singleton]
      constructor
      · exact same_out conducted.same present call
      · exact @filmed_out _ run.state.system run.trace conducted.filmed handling handler present op
      · apply conducted.proper.concat
        intro other isHandled
        cases isHandled
        exact ⟨route, handler, outside, isRoute, conducted.same.demand i handler route present
          isRoute, conducted.filmed i handler present, rfl, rfl, rfl⟩
      · exact @orderly_handled _ _ routing handling run.trace order op

end Conducted

/-- Every run of an engine with empty buffers is conducted. -/
theorem conducted_run (fresh : ∀ route ∈ routing.routes, route.output.buf.elements = [])
    (ops : List (LoopOp α)) :
    Conducted intersects highlight routing
      ((loopMachine intersects highlight routing).run ops) := by
  apply Machine.run_invariant
  · constructor
    · constructor
      · exact List.length_map _
      · intro i handler route present isRoute
        change (routing.routes.map fun route => route.output)[i]? = some handler at present
        rw [List.getElem?_map, isRoute, Option.map_some] at present
        cases present
        rfl
    · intro i handler present img member
      change (routing.routes.map fun route => route.output)[i]? = some handler at present
      obtain ⟨route, isRoute, rfl⟩ := List.mem_map.mp (List.mem_of_getElem? present)
      rw [fresh route isRoute] at member
      cases member
    · exact Throughout.nil
    · intro i _
      rfl
  · rintro run op conducted
    cases op with
    | retrieve frame =>
        cases frame with
        | none => simpa [Machine.extend, loopMachine, Loop.step] using conducted
        | some frame =>
            by_cases free : (run.state.current.isNone && routing.enabled) = true
            · have idle : run.state.current = none := by
                rw [Bool.and_eq_true, Option.isNone_iff_eq_none] at free
                exact free.1
              simp only [Machine.extend, loopMachine, Loop.step, if_pos free]
              exact conducted.took idle _ frame
            · simpa only [Machine.extend, loopMachine, Loop.step, if_neg free, List.map_nil,
                List.append_nil] using conducted
    | route outside =>
        cases busy : run.state.current with
        | none =>
            simpa only [Machine.extend, loopMachine, Loop.step, busy, List.map_nil,
              List.append_nil] using conducted
        | some current =>
            simp only [Machine.extend, loopMachine, Loop.step, busy]
            exact conducted.handle busy _ outside
    | core op =>
        simp only [Machine.extend, loopMachine, Loop.step]
        cases op with
        | out route call => simpa using conducted
        | send message => exact conducted.core (.send message) (by rintro _ _ ⟨⟩)
        | lose message => exact conducted.core (.lose message) (by rintro _ _ ⟨⟩)
        | answer event accepted eventId removable =>
            exact conducted.core (.answer event accepted eventId removable) (by rintro _ _ ⟨⟩)

/-! ## What becomes of the messages -/

/-- Every message that came of a frame was sent, is lost, or is still to be sent. -/
def Accounted (run : Run (Loop α) (LoopOp α) (LoopEvent α)) : Prop :=
  ((handled run.trace).flatMap Handling.messages).Perm
    (run.state.system.outgoing ++ sentMessages run.trace ++ lostMessages run.trace)

/-- A handled frame adds its messages to those that are to be sent. -/
theorem Accounted.handle {run : Run (Loop α) (LoopOp α) (LoopEvent α)} (accounted : Accounted run)
    (frame : Frame α) (i : Nat) (op : LoopOp α) (outside : Call α) :
    Accounted ⟨(run.state.handle intersects highlight routing frame i outside).1,
      run.trace ++ (run.state.handle intersects highlight routing frame i outside).2.map
        fun event => (op, event)⟩ := by
  unfold Loop.handle
  cases isRoute : routing.routes[i]? with
  | none => simpa [Accounted] using accounted
  | some route =>
      cases present : run.state.system.routes[i]? with
      | none => simpa [Accounted] using accounted
      | some handler =>
          simp only [System.step_out present]
          let call := routeCall intersects highlight route frame outside
          let messages := (handler.out call).2.flatMap (handler.messages call)
          have more := accounted.append_right messages
          apply List.perm_iff_count.mpr
          intro message
          have counted := more.count_eq message
          simp [handled, sentMessages, lostMessages, List.count_append, messages, call] at counted ⊢
          omega

/-- A message that is sent or lost is no longer to be sent. -/
theorem Accounted.core {run : Run (Loop α) (LoopOp α) (LoopEvent α)} (accounted : Accounted run)
    (op : Op α) (noCall : ∀ route call, op ≠ .out route call) :
    Accounted ⟨{ run.state with system := (run.state.system.step op).1 },
      run.trace ++ (coreEvents run.state.system op).map fun event => (.core op, event)⟩ := by
  unfold Accounted at accounted ⊢
  rw [Conducted.handled_coreEvents, sentMessages, lostMessages, List.filterMap_append,
    List.filterMap_append, ← sentMessages, ← lostMessages]
  refine accounted.trans ?_
  cases op with
  | out route call => exact absurd rfl (noCall route call)
  | send message =>
      by_cases member : message ∈ run.state.system.outgoing
      · simp only [System.step, coreEvents, if_pos member]
        apply List.perm_iff_count.mpr
        intro other
        have moved := (List.perm_cons_erase member).count_eq other
        simp only [List.map_cons, List.map_nil, List.filterMap_cons, List.filterMap_nil,
          List.append_nil, List.count_append, List.count_cons, List.count_nil] at moved ⊢
        omega
      · simp [System.step, coreEvents, member]
  | lose message =>
      by_cases member : message ∈ run.state.system.outgoing
      · simp only [System.step, coreEvents, if_pos member]
        apply List.perm_iff_count.mpr
        intro other
        have moved := (List.perm_cons_erase member).count_eq other
        simp only [List.map_cons, List.map_nil, List.filterMap_cons, List.filterMap_nil,
          List.append_nil, List.count_append, List.count_cons, List.count_nil] at moved ⊢
        omega
      · simp [System.step, coreEvents, member, List.erase_of_not_mem member]
  | answer event accepted eventId removable =>
      by_cases member : event ∈ run.state.system.waiting
      · simp [System.step, coreEvents, member]
      · simp [System.step, coreEvents, member]

theorem accounted_run (ops : List (LoopOp α)) :
    Accounted ((loopMachine intersects highlight routing).run ops) := by
  apply Machine.run_invariant
  · exact List.Perm.refl _
  · rintro run op accounted
    cases op with
    | retrieve frame =>
        cases frame with
        | none => simpa [Machine.extend, loopMachine, Loop.step] using accounted
        | some frame =>
            by_cases free : (run.state.current.isNone && routing.enabled) = true
            · simp only [Machine.extend, loopMachine, Loop.step, if_pos free]
              simpa [Accounted, handled, sentMessages, lostMessages] using accounted
            · simpa only [Machine.extend, loopMachine, Loop.step, if_neg free, List.map_nil,
                List.append_nil] using accounted
    | route outside =>
        cases busy : run.state.current with
        | none =>
            simpa only [Machine.extend, loopMachine, Loop.step, busy, List.map_nil,
              List.append_nil] using accounted
        | some current =>
            simp only [Machine.extend, loopMachine, Loop.step, busy]
            exact accounted.handle intersects highlight _ _ _ outside
    | core op =>
        simp only [Machine.extend, loopMachine, Loop.step]
        cases op with
        | out route call => simpa using accounted
        | send message => exact accounted.core (.send message) (by rintro _ _ ⟨⟩)
        | lose message => exact accounted.core (.lose message) (by rintro _ _ ⟨⟩)
        | answer event accepted eventId removable =>
            exact accounted.core (.answer event accepted eventId removable) (by rintro _ _ ⟨⟩)

/-! ## The route of a rule -/

variable (readWkt : GeometryType → Str → Option γ)

theorem buf_addRoute {storage : Bool} {event : EventInfo} {map : RuleMap} {route : Pipeline γ α}
    (built : addRoute readWkt storage event map = .ok route) :
    route.output.buf.elements = [] ∧
      route.output.demand = (map, map.asks .video, storage || map.asks .image) ∧
        readColliders readWkt event.configuration = .ok route.colliders := by
  rw [addRoute, readEvent] at built
  cases colliders : readColliders readWkt event.configuration with
  | error ending =>
      rw [colliders] at built
      cases built
  | ok geometries =>
      rw [colliders] at built
      generalize readSize (event.configuration.getD "video_output_number".toList []) = size at built
      cases size with
      | error ending => cases built
      | ok size =>
          cases built
          exact ⟨rfl, rfl, rfl⟩

/-- The routes that are made of rules have empty buffers. -/
theorem combine_fresh {storage : Nat → Bool} {fuel : Nat} {rules : List RuleInfo}
    {routes result : List (Pipeline γ α)}
    (old : ∀ route ∈ routes, route.output.buf.elements = [])
    (combined : combine readWkt storage fuel rules routes = some (.ok result)) :
    ∀ route ∈ result, route.output.buf.elements = [] := by
  induction fuel generalizing rules routes with
  | zero => cases combined
  | succ fuel ih =>
      rw [combine] at combined
      split at combined
      · cases combined
        exact old
      · split at combined
        · cases combined
        · split at combined
          · cases combined
          · rename_i route built
            apply ih _ combined
            intro other member
            rcases List.mem_append.mp member with before | new
            · exact old other before
            · rw [List.mem_singleton.mp new]
              exact (buf_addRoute readWkt built).1

theorem applyRules_fresh {storage : Nat → Bool} {fuel : Nat} {rules : List RuleInfo}
    (applied : applyRules readWkt storage fuel rules ⟨[], false⟩ = some (.ok routing)) :
    ∀ route ∈ routing.routes, route.output.buf.elements = [] := by
  simp only [applyRules] at applied
  split at applied
  · cases applied
    intro route member
    cases member
  · obtain ⟨result, combined, equal⟩ := Option.map_eq_some_iff.mp applied
    cases result with
    | error ending => cases equal
    | ok routes =>
        cases equal
        exact combine_fresh readWkt (by simp) combined

/-- Only one place of a list has a property that it counts once. -/
theorem eq_of_countP_eq_one {β : Type} {p : β → Bool} {items : List β} (once : items.countP p = 1)
    {i j : Nat} {a b : β} (isA : items[i]? = some a) (isB : items[j]? = some b) (pa : p a = true)
    (pb : p b = true) : i = j := by
  induction items generalizing i j with
  | nil => simp at isA
  | cons item items ih =>
      rw [List.countP_cons] at once
      have elsewhere : p item = true → items.countP p = 0 := by
        intro here
        rw [if_pos here] at once
        omega
      cases i with
      | zero =>
          cases j with
          | zero => rfl
          | succ j =>
              cases isA
              exact absurd pb (List.countP_eq_zero.mp (elsewhere pa) b (List.mem_of_getElem? isB))
      | succ i =>
          cases j with
          | zero =>
              cases isB
              exact absurd pa (List.countP_eq_zero.mp (elsewhere pb) a (List.mem_of_getElem? isA))
          | succ j =>
              have here : p item ≠ true := fun here =>
                List.countP_eq_zero.mp (elsewhere here) a (List.mem_of_getElem? isA) pa
              rw [if_neg here] at once
              exact congrArg (· + 1) (ih once isA isB)

/-- The route of an enabled rule: it has the region of the rule, its rules include the
rule, and no other route does. -/
structure RouteOf (intersects : Rect → γ → Bool) (routing : Routing γ α) (rule : RuleInfo)
    (i : Nat) : Prop where
  below : i < routing.routes.length
  route : ∀ route, routing.routes[i]? = some route →
    (∀ rects, decide ((collide intersects route.colliders rects).length > 0) =
      moves readWkt intersects rule.event rects) ∧
    route.output.map[rule.id]? = some rule.action ∧
    (route.output.map.asks .image = true → route.output.image = true)
  other : ∀ j route, routing.routes[j]? = some route → j ≠ i → rule.id ∉ route.output.map

theorem exists_routeOf (intersects : Rect → γ → Bool) {storage : Nat → Bool}
    {rules : List RuleInfo} (nodup : (rules.map RuleInfo.id).Nodup)
    (short : rules.length ≤ 2 ^ 32)
    (applied : applyRules readWkt storage (rules.length + 1) rules ⟨[], false⟩ =
      some (.ok routing)) {rule : RuleInfo} (member : rule ∈ rules)
    (enabled : rule.isDisabled = false) :
    ∃ i, RouteOf readWkt intersects routing rule i := by
  have isEnabled : rule ∈ enabledRules rules := List.mem_filter.mpr ⟨member, by simp [enabled]⟩
  rcases applyRules_spec readWkt storage nodup short (rfl : (⟨[], false⟩ : Routing γ α).routes = [])
    with ⟨result, equal, partition, _⟩ | ⟨ending, equal, _⟩
  · cases applied.symm.trans equal
    have once := partition.once rule isEnabled
    have positive : 0 < routing.routes.countP fun route => route.output.map.contains rule.id := by
      rw [once]
      exact Nat.one_pos
    obtain ⟨route, inRoutes, inside⟩ := List.countP_pos_iff.mp positive
    obtain ⟨i, isRoute⟩ := List.getElem?_of_mem inRoutes
    have inMap : rule.id ∈ route.output.map := Std.ExtTreeMap.mem_iff_contains.mpr inside
    refine ⟨i, (List.getElem?_eq_some_iff.mp isRoute).1, ?_, ?_⟩
    · intro here isHere
      cases isRoute.symm.trans isHere
      obtain ⟨held, built⟩ := partition.built route inRoutes rule isEnabled inMap
      obtain ⟨_, demand, colliders⟩ := buf_addRoute readWkt built
      refine ⟨collide_pos readWkt intersects colliders,
        partition.action route inRoutes rule isEnabled inMap, ?_⟩
      intro asks
      have image : route.output.image = (held || route.output.map.asks .image) :=
        congrArg (fun demand => demand.2.2) demand
      rw [image, asks, Bool.or_true]
    · intro j other isOther different inOther
      exact different (eq_of_countP_eq_one once isOther isRoute
        (Std.ExtTreeMap.mem_iff_contains.mp inOther) inside)
  · cases applied.symm.trans equal

/-! ## What a route announces -/

variable {readWkt} {intersects} {highlight}

theorem mem_asking_iff {map : RuleMap} {attachment : Attachment} {id : RuleID} :
    id ∈ map.asking attachment ↔ ∃ action, map[id]? = some action ∧
      asksFor attachment action = true := by
  simp [RuleMap.asking, Std.ExtTreeMap.mem_toList_iff_getElem?_eq_some]

/-- The output handler is told whether something has moved in the region of the rule. -/
theorem Proper.motion {rule : RuleInfo} {before : List (LoopOp α × LoopEvent α)}
    {handling : Handling α} (proper : Proper intersects highlight routing before handling)
    (routeOf : RouteOf readWkt intersects routing rule handling.route) :
    handling.call.b = moves readWkt intersects rule.event handling.frame.rects := by
  obtain ⟨route, handler, outside, isRoute, _, _, call, _⟩ := proper
  rw [call]
  exact (routeOf.route route isRoute).1 handling.frame.rects

/-- Every handling in a run was proper when it came. -/
theorem Conducted.proper_of_mem {run : Run (Loop α) (LoopOp α) (LoopEvent α)}
    (conducted : Conducted intersects highlight routing run) {handling : Handling α}
    (isHandled : handling ∈ handled run.trace) :
    ∃ before, Proper intersects highlight routing before handling := by
  obtain ⟨⟨op, event⟩, inTrace, isItem⟩ := List.mem_filterMap.mp isHandled
  obtain ⟨before, after, split⟩ := List.append_of_mem inTrace
  cases event with
  | took frame => cases isItem
  | sent message => cases isItem
  | lost message => cases isItem
  | handled other =>
      cases isItem
      exact ⟨before, conducted.proper before _ after split _ rfl⟩

/-- The route of a rule announces an image of it if something has moved in its region,
and no other route does. -/
theorem countP_messages {rule : RuleInfo} {i : Nat}
    (routeOf : RouteOf readWkt intersects routing rule i)
    (asks : asksFor .image rule.action = true) {before : List (LoopOp α × LoopEvent α)}
    {handling : Handling α} (proper : Proper intersects highlight routing before handling) :
    handling.messages.countP (announces .image rule.id) =
      if handling.route = i ∧ moves readWkt intersects rule.event handling.frame.rects = true then
        1
      else
        0 := by
  obtain ⟨route, handler, outside, isRoute, demand, filmed, call, effects, messages⟩ := id proper
  have map : handler.map = route.output.map := congrArg Prod.fst demand
  have image : handler.image = route.output.image := congrArg (fun demand => demand.2.2) demand
  rw [messages, effects, countP_out, map, image]
  by_cases own : handling.route = i
  · subst own
    obtain ⟨_, action, flag⟩ := routeOf.route route isRoute
    have inside : rule.id ∈ route.output.map.asking .image :=
      mem_asking_iff.mpr ⟨rule.action, action, asks⟩
    have asked : route.output.map.asks .image = true := by
      rw [RuleMap.asks, List.any_eq_true]
      exact ⟨(rule.id, rule.action),
        Std.ExtTreeMap.mem_toList_iff_getElem?_eq_some.mpr action, asks⟩
    rw [flag asked, Bool.true_and, proper.motion routeOf]
    simp only [inside, and_true, true_and]
  · have outside : rule.id ∉ route.output.map.asking .image := by
      intro inside
      obtain ⟨action, present, _⟩ := mem_asking_iff.mp inside
      exact routeOf.other _ route isRoute own
        (Std.ExtTreeMap.mem_iff_isSome_getElem?.mpr (by rw [present]; rfl))
    rw [if_neg (fun both => outside both.2), if_neg (fun both => own both.1)]

/-- The frames for which an image of a rule is announced, once for each event. -/
def announcedFor (id : RuleID) (trace : List (LoopOp α × LoopEvent α)) : List (Frame α) :=
  (handled trace).flatMap fun handling =>
    (handling.messages.filter (announces .image id)).map fun _ => handling.frame

theorem length_announcedFor (id : RuleID) (trace : List (LoopOp α × LoopEvent α)) :
    (announcedFor id trace).length =
      ((handled trace).flatMap Handling.messages).countP (announces .image id) := by
  rw [announcedFor, List.length_flatMap, List.countP_flatMap]
  congr 1
  apply List.map_congr_left
  intro handling _
  rw [List.length_map, Function.comp_apply, List.countP_eq_length_filter]

/-- A handler sends events for its own rules only. -/
theorem mem_map_of_event {handler : OutputHandler α} {call : Call α} {effect : Effect α}
    (inEffects : effect ∈ (handler.out call).2) {message : Message}
    (sent : message ∈ handler.messages call effect) {event : Event}
    (isEvent : message.event? = some event) : event.ruleId ∈ handler.map := by
  have announced : ∀ (attachment : Attachment) (name : Str),
      message ∈ handler.announce attachment name → event.ruleId ∈ handler.map := by
    intro attachment name inside
    obtain ⟨rule, asks, rfl⟩ := List.mem_map.mp inside
    cases isEvent
    obtain ⟨action, present, _⟩ := mem_asking_iff.mp asks
    exact Std.ExtTreeMap.mem_iff_isSome_getElem?.mpr (by rw [present]; rfl)
  obtain ⟨writers, starts, split⟩ := handler.out_starts call
  rw [split] at inEffects
  rcases List.mem_append.mp inEffects with writer | plain
  · obtain ⟨attachment, img, time, file⟩ := starts.writers effect writer
    cases effect with
    | sent other => cases file
    | removed name => cases file
    | imageWriter name img => exact announced .image name sent
    | videoWriter name block =>
        change message ∈ handler.writeVideo call.opened name at sent
        by_cases opened : call.opened = true
        · rw [OutputHandler.writeVideo, if_pos opened] at sent
          exact announced .video name sent
        · rw [OutputHandler.writeVideo, if_neg opened, List.mem_singleton] at sent
          rw [sent] at isEvent
          cases isEvent
  · obtain ⟨rule, isPlain, rfl⟩ := List.mem_map.mp plain
    rw [List.mem_singleton.mp sent] at isEvent
    cases isEvent
    obtain ⟨action, present, _⟩ := OutputHandler.mem_plain_iff.mp isPlain
    exact Std.ExtTreeMap.mem_iff_isSome_getElem?.mpr (by rw [present]; rfl)

/-- Items without a result can be left out before. -/
theorem flatMap_filter {β δ : Type} {p : β → Bool} {f : β → List δ} {items : List β}
    (empty : ∀ item ∈ items, p item = false → f item = []) :
    items.flatMap f = (items.filter p).flatMap f := by
  induction items with
  | nil => rfl
  | cons item items ih =>
      have rest := ih fun other member => empty other (List.mem_cons_of_mem _ member)
      by_cases here : p item = true
      · rw [List.flatMap_cons, List.filter_cons_of_pos here, List.flatMap_cons, rest]
      · rw [List.flatMap_cons, List.filter_cons_of_neg here, rest,
          empty item List.mem_cons_self (by simpa using here), List.nil_append]

/-- Items that give themselves or nothing are filtered. -/
theorem flatMap_eq_filter_map {β δ : Type} {q : δ → Bool} {f : β → List δ} {g : β → δ}
    {items : List β} (each : ∀ item ∈ items, f item = if q (g item) = true then [g item] else []) :
    items.flatMap f = (items.map g).filter q := by
  induction items with
  | nil => rfl
  | cons item items ih =>
      rw [List.flatMap_cons, each item List.mem_cons_self,
        ih fun other member => each other (List.mem_cons_of_mem _ member), List.map_cons]
      by_cases here : q (g item) = true
      · rw [if_pos here, List.filter_cons_of_pos here, List.singleton_append]
      · rw [if_neg here, List.filter_cons_of_neg here, List.nil_append]

/-! ## Main results -/

variable (readWkt intersects highlight)

/-- For a rule that asks for images exactly one event with an image is given to a writer for
each frame with a motion in the region of the rule, and no other, in the order of the
frames.  As many of these events are sent as are neither lost nor still to be sent.
Nothing in this depends on the other rules, or on what writers and the core do while the
routes have the frame. -/
theorem image_events {storage : Nat → Bool} {rules : List RuleInfo}
    (nodup : (rules.map RuleInfo.id).Nodup) (short : rules.length ≤ 2 ^ 32)
    (applied : applyRules readWkt storage (rules.length + 1) rules ⟨[], false⟩ =
      some (.ok routing)) {rule : RuleInfo} (member : rule ∈ rules)
    (enabled : rule.isDisabled = false) (asks : asksFor .image rule.action = true)
    (ops : List (LoopOp α)) :
    let run := (loopMachine intersects highlight routing).run ops
    run.state.current = none →
      let moving := (taken run.trace).filter fun frame =>
        moves readWkt intersects rule.event frame.rects
      announcedFor rule.id run.trace = moving ∧
        (sentMessages run.trace).countP (announces .image rule.id) +
            (lostMessages run.trace).countP (announces .image rule.id) +
            run.state.system.outgoing.countP (announces .image rule.id) = moving.length := by
  intro run idle moving
  suffices announced : announcedFor rule.id run.trace = moving by
    refine ⟨announced, ?_⟩
    have accounted : Accounted run := accounted_run intersects highlight ops
    have total := accounted.countP_eq (announces .image rule.id)
    rw [List.countP_append, List.countP_append, ← length_announcedFor, announced] at total
    omega
  obtain ⟨i, routeOf⟩ := exists_routeOf readWkt intersects nodup short applied member enabled
  have conducted : Conducted intersects highlight routing run :=
    conducted_run intersects highlight (applyRules_fresh readWkt applied) ops
  have order := conducted.orderly
  rw [idle] at order
  have count : ∀ handling ∈ handled run.trace,
      handling.messages.countP (announces .image rule.id) =
        if handling.route = i ∧
            moves readWkt intersects rule.event handling.frame.rects = true then 1 else 0 := by
    intro handling isHandled
    obtain ⟨before, proper⟩ := conducted.proper_of_mem isHandled
    exact countP_messages routeOf asks proper
  have frames : ∀ handling ∈ handled run.trace,
      (handling.messages.filter (announces .image rule.id)).map (fun _ => handling.frame) =
        if handling.route = i ∧
            moves readWkt intersects rule.event handling.frame.rects = true then
          [handling.frame]
        else
          [] := by
    intro handling isHandled
    have length := count handling isHandled
    rw [List.countP_eq_length_filter] at length
    rw [List.map_const', length]
    split
    · rfl
    · rfl
  rw [announcedFor, flatMap_filter (p := fun handling => handling.route = i), ← handledBy]
  · rw [flatMap_eq_filter_map (g := Handling.frame)
      (q := fun frame => moves readWkt intersects rule.event frame.rects),
      order i routeOf.below]
    intro handling isHandled
    obtain ⟨inTrace, own⟩ := List.mem_filter.mp isHandled
    rw [frames handling inTrace]
    simp only [of_decide_eq_true own, true_and]
  · intro handling inTrace foreign
    rw [frames handling inTrace, if_neg (fun both => of_decide_eq_false foreign both.1)]

/-- A rule that asks for an attachment gets no event without a motion in its region: a
motion in the frame at hand, or in a frame of the video that the event announces. -/
theorem events_moved {storage : Nat → Bool} {rules : List RuleInfo}
    (nodup : (rules.map RuleInfo.id).Nodup) (short : rules.length ≤ 2 ^ 32)
    (applied : applyRules readWkt storage (rules.length + 1) rules ⟨[], false⟩ =
      some (.ok routing)) {rule : RuleInfo} (member : rule ∈ rules)
    (enabled : rule.isDisabled = false)
    (asks : asksFor .image rule.action = true ∨ asksFor .video rule.action = true)
    (ops : List (LoopOp α)) :
    Throughout (fun before item => ∀ handling, item.2 = .handled handling →
      ∀ message ∈ handling.messages, ∀ event, message.event? = some event →
        event.ruleId = rule.id →
          moves readWkt intersects rule.event handling.frame.rects = true ∨
            ∃ name block, Effect.videoWriter name block ∈ handling.effects ∧
              ∃ past ∈ handledBy handling.route before, past.call.img ∈ block ∧
                moves readWkt intersects rule.event past.frame.rects = true)
      ((loopMachine intersects highlight routing).run ops).trace := by
  obtain ⟨i, routeOf⟩ := exists_routeOf readWkt intersects nodup short applied member enabled
  have conducted : Conducted intersects highlight routing
      ((loopMachine intersects highlight routing).run ops) :=
    conducted_run intersects highlight (applyRules_fresh readWkt applied) ops
  rintro before item after split handling isHandling message sent event isEvent own
  have proper := conducted.proper before item after split handling isHandling
  obtain ⟨route, handler, outside, isRoute, demand, filmed, _, effects, messages⟩ := id proper
  have map : handler.map = route.output.map := congrArg Prod.fst demand
  rw [messages] at sent
  obtain ⟨effect, inEffects, sent⟩ := List.mem_flatMap.mp sent
  have isOut := inEffects
  rw [effects] at isOut
  have inside := mem_map_of_event isOut sent isEvent
  rw [own, map] at inside
  have here : handling.route = i := by
    by_contra different
    exact routeOf.other _ route isRoute different inside
  subst here
  by_cases motion : handling.call.b = true
  · left
    rw [← proper.motion routeOf]
    exact motion
  · right
    rcases OutputHandler.mem_out_of_still (by simpa using motion) isOut with
      ⟨name, block, rfl, frame, inBuf, inBlock⟩ | plain
    · obtain ⟨past, isPast, moved, rfl⟩ := filmed frame inBuf
      obtain ⟨wasHandled, same⟩ := List.mem_filter.mp isPast
      have inTrace : past ∈ handled ((loopMachine intersects highlight routing).run ops).trace := by
        rw [split, handled, List.filterMap_append]
        exact List.mem_append_left _ wasHandled
      obtain ⟨_, pastProper⟩ := conducted.proper_of_mem inTrace
      refine ⟨name, block, inEffects, past, isPast, inBlock, ?_⟩
      rw [← of_decide_eq_true same] at routeOf
      rw [← pastProper.motion routeOf]
      exact moved
    · exfalso
      obtain ⟨id, isPlain, rfl⟩ := List.mem_map.mp plain
      rw [List.mem_singleton.mp sent] at isEvent
      cases isEvent
      obtain ⟨action, present, noVideo, noImage⟩ := OutputHandler.mem_plain_iff.mp isPlain
      have held := (routeOf.route route isRoute).2.1
      rw [map, show id = rule.id from own, held] at present
      cases present
      rcases asks with image | video
      · rw [noImage] at image
        cases image
      · rw [noVideo] at video
        cases video

end

/-! ## A frame with a motion on the left and one on the right -/

/-- The left half of a frame. -/
def leftHalf : StrMap :=
  twentyFrames.insert "collider_rio".toList "BOX(0 0,320 480)".toList

/-- A rule that asks for images of the left half. -/
def leftRule : RuleInfo :=
  { motionRule 0 leftHalf with
    action := ⟨[], "module_mail".toList, [], "send".toList,
      (∅ : StrMap).insert "attachments".toList "image".toList, []⟩ }

def leftRoute : Pipeline Str Unit where
  colliders := [["BOX(0 0,320 480)".toList]]
  highlighter := false
  output := Video.addRoute ⟨false, 20, (∅ : RuleMap).insert 0 leftRule.action⟩

def isLeft (rect : Rect) (_ : Str) : Bool :=
  rect.x ≤ 320

theorem readEvent_leftHalf :
    readEvent (fun _ text => some text) leftHalf =
      .ok ([["BOX(0 0,320 480)".toList]], false, 20) := by
  have size : readSize "20".toList = .ok 20 := by decide +kernel
  have rio : leftHalf.getD "collider_rio".toList [] = "BOX(0 0,320 480)".toList := by decide
  have noHighlighter : leftHalf.getD "highlighter".toList [] = [] := by decide
  have frames : leftHalf.getD "video_output_number".toList [] = "20".toList := by decide
  have geometries : readColliders (fun _ text => some text) leftHalf =
      .ok [["BOX(0 0,320 480)".toList]] := by
    rw [readColliders, rio]
    rfl
  rw [readEvent, geometries, noHighlighter, frames, size]
  rfl

theorem applyRules_leftRule :
    applyRules (fun _ text => some text) (fun _ => false) 2 [leftRule] ⟨[], false⟩ =
      some (.ok ⟨[leftRoute], true⟩) := by
  have built : addRoute (fun _ text => some text) false leftRule.event
      ((∅ : RuleMap).insert 0 leftRule.action) = .ok leftRoute := by
    rw [addRoute, show leftRule.event.configuration = leftHalf from rfl, readEvent_leftHalf]
    rfl
  have round := combine_concat (fun _ text => some text) (fun _ => false) 1 [] leftRule (by decide)
    (by decide) ([] : List (Pipeline Str Unit))
  change Option.map _ (combine (fun _ text => some text) (fun _ => false) 2 [leftRule] []) = _
  have first : addRoute (fun _ text => some text) false leftRule.event
      (insertRules ∅ (leftRule :: ([] : List RuleInfo).filter fun rule =>
        sameEvent leftRule.event rule.event)) = .ok leftRoute := built
  rw [List.nil_append] at round
  simp only [first] at round
  rw [round]
  rfl

/-- A frame of the camera with one moving rectangle. -/
def movingFrame (id : UInt64) (x : Int) : Frame Unit :=
  ⟨⟨(), id, 1⟩, [⟨x, 5, 10, 10⟩]⟩

/-- Two motions on the left and one on the right; the writer of the second image fails. -/
def leftAndRight : List (LoopOp Unit) :=
  [.retrieve (some (movingFrame 1 5)), .route (motionCall 0), .retrieve none,
    .retrieve (some (movingFrame 2 500)), .core (.send (.msgEvent (imageEvent 0 1))),
    .route (motionCall 0), .retrieve (some (movingFrame 3 7)), .route (motionCall 0),
    .core (.lose (.msgEvent (imageEvent 0 3)))]

/-- The run of the engine over these frames. -/
def leftRun : Run (Loop Unit) (LoopOp Unit) (LoopEvent Unit) :=
  (loopMachine isLeft (fun image _ => image) ⟨[leftRoute], true⟩).run leftAndRight

theorem image_events_left :
    (announcedFor 0 leftRun.trace).map (fun frame => frame.image.imageId) = [1, 3] ∧
      sentMessages leftRun.trace = [.msgEvent (imageEvent 0 1)] ∧
      1 + (lostMessages leftRun.trace).countP (announces .image 0) +
        leftRun.state.system.outgoing.countP (announces .image 0) = 2 := by
  have nodup : ([leftRule].map RuleInfo.id).Nodup := by decide
  have idle : leftRun.state.current.isNone = true := by decide +kernel
  have asks : asksFor .image leftRule.action = true := by decide +kernel
  have sent : sentMessages leftRun.trace = [.msgEvent (imageEvent 0 1)] := by decide +kernel
  have one : [.msgEvent (imageEvent 0 1)].countP (announces .image 0) = 1 := by decide +kernel
  have moving : ((taken leftRun.trace).filter fun frame =>
      moves (fun _ text => some text) isLeft leftRule.event frame.rects).map
        (fun frame => frame.image.imageId) = [1, 3] := by
    decide +kernel
  rcases image_events isLeft (fun image _ => image) (fun _ text => some text) nodup (by decide)
    applyRules_leftRule List.mem_cons_self rfl asks leftAndRight
    (Option.isNone_iff_eq_none.mp idle) with ⟨announced, total⟩
  have two := congrArg List.length moving
  rw [List.length_map] at two
  refine ⟨(congrArg _ announced).trans moving, sent, ?_⟩
  rw [← one, ← sent]
  exact total.trans two

theorem events_moved_left :
    Throughout (fun before item => ∀ handling, item.2 = .handled handling →
      ∀ message ∈ handling.messages, ∀ event, message.event? = some event →
        event.ruleId = leftRule.id →
          moves (fun _ text => some text) isLeft leftRule.event handling.frame.rects = true ∨
            ∃ name block, Effect.videoWriter name block ∈ handling.effects ∧
              ∃ past ∈ handledBy handling.route before, past.call.img ∈ block ∧
                moves (fun _ text => some text) isLeft leftRule.event past.frame.rects = true)
      leftRun.trace := by
  have nodup : ([leftRule].map RuleInfo.id).Nodup := by decide
  have asks : asksFor .image leftRule.action = true := by decide +kernel
  exact events_moved isLeft (fun image _ => image) (fun _ text => some text) nodup (by decide)
    applyRules_leftRule List.mem_cons_self rfl (Or.inl asks) leftAndRight

end Sentri.Modules.Video.Engine
