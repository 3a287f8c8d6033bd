import Sentri.Data.CircularBuffer
import Sentri.LibModule.MessageHandler
import Sentri.LibModule.Rule

/-!
# The output handler of the video module

An output handler is given every frame of a camera together with the answer of
the motion detector.  It records blocks of frames around a motion as videos,
single frames as images, and sends the events of its rules.  Videos and images
are written by processes of their own, which send the events that carry the
file; the handler counts the events of every file so that it can remove the
file when the core has answered them.
-/

namespace Sentri.Modules.Video

open Sentri.Data Sentri.LibModule Sentri.Text

universe u

def moduleName : Str :=
  "module_video".toList

/-- A frame with pixels of type `α`. -/
structure Image (α : Type u) where
  mat : α
  imageId : UInt64
  camId : UInt64
  deriving DecidableEq

/-- A local time in whole seconds as `to_iso_string` writes it, for example
`20160131T100001`. -/
structure IsoTime where
  text : Str
  length : text.length = 15
  digits : text.all (fun c => c.isDigit || c == 'T') = true

/-! ## Attachments -/

/-- What can be attached to an event. -/
inductive Attachment where
  | image
  | video
  deriving DecidableEq

namespace Attachment

/-- The name of an attachment, in rules as well as in variables. -/
def key : Attachment → Str
  | image => "image".toList
  | video => "video".toList

def directory : Attachment → Str
  | image => "img/".toList
  | video => "video/".toList

def suffix : Attachment → Str
  | image => ".jpg".toList
  | video => ".mp4".toList

/-- The file of a frame, or of a block of frames that starts with it. -/
def file {α : Type u} (attachment : Attachment) (path : Str) (img : Image α)
    (time : IsoTime) : Str :=
  path ++ attachment.directory ++ "cam_id_".toList ++ toDecimal img.camId.toNat ++
    "_img_id_".toList ++ toDecimal img.imageId.toNat ++ ['_'] ++ time.text ++
    attachment.suffix

end Attachment

/-- Does a rule ask for an attachment? -/
def asksFor (attachment : Attachment) (action : ActionInfo) : Bool :=
  occurs attachment.key (action.configuration.getD "attachments".toList [])

/-- The rules of an output handler, in the order of their ids. -/
abbrev RuleMap :=
  Std.ExtTreeMap RuleID ActionInfo

/-- The rules that ask for an attachment. -/
def RuleMap.asking (map : RuleMap) (attachment : Attachment) : List RuleID :=
  (map.toList.filter fun rule => asksFor attachment rule.2).map Prod.fst

/-- The rules without an attachment. -/
def RuleMap.plain (map : RuleMap) : List RuleID :=
  (map.toList.filter fun rule =>
    !asksFor .video rule.2 && !asksFor .image rule.2).map Prod.fst

/-- How many events of a file are not answered yet, for every file. -/
abbrev Pending :=
  Std.ExtTreeMap Str Int

/-- Count one event for each rule. -/
def Pending.register (pending : Pending) (name : Str) (rules : List RuleID) : Pending :=
  rules.foldl (fun pending _ => pending.insert name (pending.getD name 0 + 1)) pending

/-! ## Output handlers -/

structure OutputHandler (α : Type u) where
  /-- Frames with motion. -/
  buf : CircularBuffer (Image α)
  /-- Frames before the motion. -/
  buf2 : CircularBuffer (Image α)
  /-- Frames after the motion. -/
  buf3 : CircularBuffer (Image α)
  path : Str
  map : RuleMap
  pendingAttachments : Pending
  write : Bool
  image : Bool
  pre : Bool
  post : Bool

/-- What a handler does to the outside. -/
inductive Effect (α : Type u) where
  /-- A message put into the queue of the core. -/
  | sent (message : Message)
  /-- A process that writes one frame into a file. -/
  | imageWriter (name : Str) (img : Image α)
  /-- A process that writes a block of frames into a file. -/
  | videoWriter (name : Str) (block : List (Image α))
  /-- A call of `remove`. -/
  | removed (name : Str)
  deriving DecidableEq

/-- One call of `out`, with all that it reads from the outside. -/
structure Call (α : Type u) where
  img : Image α
  b : Bool
  /-- The time when the image writer is started. -/
  imageTime : IsoTime
  /-- The time when the video writer is started; a call starts at most one. -/
  videoTime : IsoTime
  /-- Can the video writer open its file? -/
  opened : Bool
  /-- What reading the first frame of an empty buffer gives, which is
  undefined. -/
  stray : Image α

namespace OutputHandler

variable {α : Type u}

/-- The constructor.  It only ever sets `image_` to true: `storage` is what the
memory held before. -/
def new (storage : Bool) (path : Str) (size : Nat) (map : RuleMap) : OutputHandler α where
  buf := .empty size
  buf2 := .empty 10
  buf3 := .empty 10
  path := path
  map := map
  pendingAttachments := ∅
  write := map.toList.any fun rule => asksFor .video rule.2
  image := storage || map.toList.any fun rule => asksFor .image rule.2
  pre := true
  post := false

/-- The frames of a video. -/
def block (handler : OutputHandler α) : List (Image α) :=
  handler.buf2.elements ++ handler.buf.elements ++ handler.buf3.elements

/-- Count an event of a file for every rule that asks for the attachment. -/
def register (handler : OutputHandler α) (attachment : Attachment) (name : Str) :
    OutputHandler α :=
  { handler with
    pendingAttachments :=
      handler.pendingAttachments.register name (handler.map.asking attachment) }

def forkImageWriter (handler : OutputHandler α) (call : Call α) :
    OutputHandler α × List (Effect α) :=
  let name := Attachment.image.file handler.path call.img call.imageTime
  (handler.register .image name, [.imageWriter name call.img])

def forkVideoWriter (handler : OutputHandler α) (call : Call α) :
    OutputHandler α × List (Effect α) :=
  let first := handler.buf.elements.headD call.stray
  let name := Attachment.video.file handler.path first call.videoTime
  (handler.register .video name, [.videoWriter name handler.block])

/-- Write the block if it is long enough, with at least three frames with
motion, and start with an empty one. -/
def closeBlock (handler : OutputHandler α) (call : Call α) :
    OutputHandler α × List (Effect α) :=
  let (handler, effects) :=
    if 15 ≤ handler.buf.size + handler.buf2.size + handler.buf3.size ∧
        3 ≤ handler.buf.size then
      handler.forkVideoWriter call
    else
      (handler, [])
  ({ handler with
      buf := handler.buf.clear
      buf2 := handler.buf2.clear
      buf3 := handler.buf3.clear
      post := false
      pre := true }, effects)

/-- A motion after the end of a block closes it. -/
def recordAgain (handler : OutputHandler α) (call : Call α) :
    OutputHandler α × List (Effect α) :=
  if call.b && handler.post then handler.closeBlock call else (handler, [])

/-- Keep a frame with motion; the first frame without one ends the motion. -/
def recordMotion (handler : OutputHandler α) (call : Call α) :
    OutputHandler α × List (Effect α) :=
  if call.b then
    let (handler, effects) :=
      if handler.buf.full then
        let (handler, effects) := handler.forkVideoWriter call
        ({ handler with buf := handler.buf.clear, buf2 := handler.buf2.clear }, effects)
      else
        (handler, [])
    ({ handler with pre := false, buf := handler.buf.pushBack call.img }, effects)
  else if !handler.pre then
    ({ handler with post := true }, [])
  else
    (handler, [])

/-- Always keep the last ten frames before a motion. -/
def recordBefore (handler : OutputHandler α) (call : Call α) : OutputHandler α :=
  if !call.b && handler.pre then
    { handler with buf2 := handler.buf2.pushBack call.img }
  else
    handler

/-- Keep ten frames after a motion; the eleventh closes the block. -/
def recordAfter (handler : OutputHandler α) (call : Call α) :
    OutputHandler α × List (Effect α) :=
  if !call.b && handler.post then
    if handler.buf3.full then
      handler.closeBlock call
    else
      ({ handler with buf3 := handler.buf3.pushBack call.img }, [])
  else
    (handler, [])

/-- The part of `out` for videos. -/
def record (handler : OutputHandler α) (call : Call α) :
    OutputHandler α × List (Effect α) :=
  let (handler, again) := handler.recordAgain call
  let (handler, motion) := handler.recordMotion call
  let (handler, after) := (handler.recordBefore call).recordAfter call
  (handler, again ++ motion ++ after)

/-- The part of `out` for images. -/
def snapshot (handler : OutputHandler α) (call : Call α) :
    OutputHandler α × List (Effect α) :=
  if handler.image && call.b then handler.forkImageWriter call else (handler, [])

/-- The events of the rules without an attachment. -/
def plainEvents (handler : OutputHandler α) : List (Effect α) :=
  handler.map.plain.map fun rule => .sent (MessageHandler.sendEventMessage rule [])

def out (handler : OutputHandler α) (call : Call α) : OutputHandler α × List (Effect α) :=
  let (handler, videos) := if handler.write then handler.record call else (handler, [])
  let (handler, images) := handler.snapshot call
  (handler, videos ++ images ++ handler.plainEvents)

/-! ## Writers -/

/-- The events of the rules that ask for an attachment, with its file. -/
def announce (handler : OutputHandler α) (attachment : Attachment) (name : Str) :
    List Message :=
  (handler.map.asking attachment).map fun rule =>
    MessageHandler.sendEventMessage rule (attachment.key ++ '=' :: name)

def writeImage (handler : OutputHandler α) (pathImage : Str) : List Message :=
  handler.announce .image pathImage

def writeVideo (handler : OutputHandler α) (opened : Bool) (pathVideo : Str) : List Message :=
  if opened then
    handler.announce .video pathVideo
  else
    [MessageHandler.log moduleName .error
      ("Cannot open VideoWriter: ".toList ++ handler.path)]

/-- The messages sent on account of an effect of a call, by the module itself
or by a writer. -/
def messages (handler : OutputHandler α) (call : Call α) : Effect α → List Message
  | .sent message => [message]
  | .imageWriter name _ => handler.writeImage name
  | .videoWriter name _ => handler.writeVideo call.opened name
  | .removed _ => []

/-! ## Answers of the core -/

/-- Count down the events of a file and remove it after the last one;
`removable` tells whether `remove` succeeds.  A file without a count starts
at zero. -/
def answered (pending : Pending) (name : Str) (removable : Bool) :
    Pending × List (Effect α) :=
  let pending := pending.insert name (pending.getD name 0 - 1)
  if pending.getD name 0 = 0 then
    let warning : List (Effect α) :=
      if removable then
        []
      else
        [.sent (MessageHandler.log moduleName .warning ("Cannot delete file:".toList ++ name))]
    (pending.erase name, .removed name :: warning)
  else
    (pending, [])

/-- Count down the events of the file that the variables name. -/
def answeredAttachment (pending : Pending) (vars : StrMap) (attachment : Attachment)
    (removable : Str → Bool) : Pending × List (Effect α) :=
  match vars[attachment.key]? with
  | some name => answered pending name (removable name)
  | none => (pending, [])

def handlePendingAttachments (handler : OutputHandler α) (message : Message) (vars : StrMap)
    (removable : Str → Bool) : OutputHandler α × List (Effect α) :=
  if message.type = .msgEvabt ∨ message.type = .msgAckev then
    let (pending, videos) :=
      answeredAttachment handler.pendingAttachments vars .video removable
    let (pending, images) := answeredAttachment pending vars .image removable
    ({ handler with pendingAttachments := pending }, videos ++ images)
  else
    (handler, [.sent (MessageHandler.log moduleName .warning
      ("Cannot handle message of type: ".toList ++ toDecimal (typeNumber message.type)))])

end OutputHandler

end Sentri.Modules.Video
