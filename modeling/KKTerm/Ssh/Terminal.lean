import KKTerm.Library.Runs
import KKTerm.Library.Text
import KKTerm.Library.Utf8

/-!
# A terminal on a server

The calls of the interface travel to the worker through one queue. While the worker starts, its
password prompts read the queue; in the event loop the worker reads it itself. A terminal in a
tmux session is connected again when its connection is lost.
-/

namespace Ssh

structure PtySize where
  cols : UInt16
  rows : UInt16
  pixelWidth : UInt16
  pixelHeight : UInt16
  deriving DecidableEq

inductive SshTerminalControl where
  | input (data : List UInt8)
  | resize (size : PtySize)
  | close
  deriving DecidableEq

structure NativeSshTerminalRequest where
  size : PtySize
  /-- The start returns before the terminal is ready, so that prompts can be answered. -/
  authNeedsInput : Bool
  useTmux : Bool
  tmuxSessionId : Option (List Char)

def canResumeTmuxTerminal (request : NativeSshTerminalRequest) : Bool :=
  request.useTmux && request.tmuxSessionId.any (fun id => !(Text.trim id).isEmpty)

def resumeMaxAttempts : Nat := 2

/-- What the server is told about the size. -/
inductive SizeMessage where
  | requestPty (size : PtySize)
  | windowChange (size : PtySize)
  deriving DecidableEq

def SizeMessage.size : SizeMessage → PtySize
  | .requestPty size => size
  | .windowChange size => size

/-- A prompt goes on with what was typed, or it is over. -/
inductive Prompt where
  | reading (input : List UInt8)
  | answered (answer : List Char)
  | cancelled

/-- One octet at a prompt, and what is shown for it. -/
def promptByte (echo : Bool) (input : List UInt8) (byte : UInt8) : Prompt × List Char :=
  if byte = 13 ∨ byte = 10 then (.answered (Utf8.fromUtf8Lossy input), ['\r', '\n'])
  else if byte = 3 then (.cancelled, ['^', 'C', '\r', '\n'])
  else if byte = 8 ∨ byte = 127 then
    (.reading input.dropLast,
      if echo ∧ input ≠ [] then [Char.ofNat 8, ' ', Char.ofNat 8] else [])
  else (.reading (input ++ [byte]), if echo then Utf8.fromUtf8Lossy [byte] else [])

/-- What is typed after the end of the answer is lost. -/
def promptBytes (echo : Bool) (input : List UInt8) : List UInt8 → Prompt × List Char
  | [] => (.reading input, [])
  | byte :: rest =>
    match promptByte echo input byte with
    | (.reading input, shown) =>
      let (prompt, later) := promptBytes echo input rest
      (prompt, shown ++ later)
    | finished => finished

def readTerminalPromptInput (echo : Bool) (input : List UInt8) :
    SshTerminalControl → Prompt × List Char
  | .input data => promptBytes echo input data
  | .resize _ => (.reading input, [])
  | .close => (.cancelled, [])

inductive Phase where
  /-- Before the pseudo-terminal is requested. -/
  | starting
  | prompting (echo : Bool) (input : List UInt8)
  /-- From the request of the pseudo-terminal to the end of the start-up. -/
  | allocated
  | eventLoop
  | delaying
  | ended
  deriving DecidableEq

inductive TerminalRunOutcome where
  | closed
  | disconnected

/-- The handle of the interface. While it is being closed, it still holds the queue open. -/
inductive Handle where
  | held
  | closing
  | dropped
  deriving DecidableEq

/-- The queue and the worker, with what was sent on the current connection and the resize calls
so far. -/
structure Terminal where
  controls : List SshTerminalControl
  handle : Handle
  ready : Bool
  phase : Phase
  initialStart : Bool
  resumeAttempts : Nat
  sent : List SizeMessage
  output : List Char
  resizes : List PtySize

inductive Event where
  | resize (size : PtySize)
  | writeInput (data : List UInt8)
  | close
  | drop
  | beginPrompt (label : List Char) (echo : Bool)
  | readPrompt
  | requestPty
  | startShell
  /-- An error or a time-out of the start-up. -/
  | failStartup (error : List Char)
  | cancelStartup
  /-- The loop reads a message; what it sends then may fail. -/
  | readControl (sends : Except (List Char) Unit)
  | otherMessage
  | disconnect
  | resume

namespace Terminal
variable (request : NativeSshTerminalRequest)

def initial : Terminal :=
  { controls := [], handle := .held, ready := false, phase := .starting, initialStart := true
    resumeAttempts := 0, sent := [], output := [], resizes := [] }

def retry (t : Terminal) : Terminal :=
  if t.handle = .dropped then { t with phase := .ended }
  else if resumeMaxAttempts ≤ t.resumeAttempts then { t with
    phase := .ended
    output := t.output ++ ("\r\n[native SSH session disconnected after repeated tmux resume " ++
      "attempts]\r\n").toList }
  else { t with phase := .delaying, resumeAttempts := t.resumeAttempts + 1 }

def finish (t : Terminal) : Except (List Char) TerminalRunOutcome → Terminal
  | .ok .closed => { t with phase := .ended }
  | .ok .disconnected =>
    if canResumeTmuxTerminal request then t.retry else { t with phase := .ended }
  | .error _ =>
    if canResumeTmuxTerminal request && !t.initialStart then t.retry
    else { t with phase := .ended }

def prompted (t : Terminal) (echo : Bool) : Prompt → Terminal
  | .reading input => { t with phase := .prompting echo input }
  | .answered _ => { t with phase := .starting }
  | .cancelled => t.finish request (.error "SSH password prompt was cancelled".toList)

def readPrompt (t : Terminal) : Option Terminal :=
  match t.phase, t.controls with
  | .prompting echo input, control :: rest =>
    let (prompt, shown) := readTerminalPromptInput echo input control
    some ({ t with controls := rest, output := t.output ++ shown }.prompted request echo prompt)
  | .prompting echo _, [] => if t.handle = .dropped then some (t.prompted request echo .cancelled) else none
  | _, _ => none

/-- What the event loop does with a message. -/
def handleControl (t : Terminal) (sends : Except (List Char) Unit) :
    SshTerminalControl → Terminal
  | .input _ =>
    match sends with
    | .ok () => t
    | .error error => t.finish request (.error ("failed to write SSH terminal input: ".toList ++ error))
  | .resize size =>
    match sends with
    | .ok () => { t with sent := t.sent ++ [.windowChange size] }
    | .error error => t.finish request (.error ("failed to resize SSH terminal: ".toList ++ error))
  | .close => t.finish request (.ok .closed)

def readControl (t : Terminal) (sends : Except (List Char) Unit) : Option Terminal :=
  match t.phase, t.controls with
  | .eventLoop, control :: rest => some ({ t with controls := rest }.handleControl request sends control)
  | .eventLoop, [] => if t.handle = .dropped then some (t.finish request (.ok .closed)) else none
  | _, _ => none

/-- A call reaches the queue while there is a worker to read it. -/
def enqueue (t : Terminal) (control : SshTerminalControl) : Terminal :=
  if t.phase = .ended then t else { t with controls := t.controls ++ [control] }

def starts (t : Terminal) : Bool :=
  match t.phase with
  | .starting => true
  | .prompting _ _ => true
  | .allocated => true
  | _ => false

def callable (t : Terminal) : Bool :=
  t.handle = .held && (request.authNeedsInput || t.ready)

def step (t : Terminal) : Event → Option Terminal
  | .resize size =>
    if t.callable request then
      some { t.enqueue (.resize size) with resizes := t.resizes ++ [size] }
    else none
  | .writeInput data => if t.callable request then some (t.enqueue (.input data)) else none
  | .close =>
    if t.callable request then some { t.enqueue .close with handle := .closing } else none
  | .drop =>
    if t.handle = .held ∨ t.handle = .closing ∧ t.phase = .ended then
      some { t with handle := .dropped }
    else none
  | .beginPrompt label echo =>
    if t.phase = .starting then
      some { t with phase := .prompting echo [], output := t.output ++ label }
    else none
  | .readPrompt => t.readPrompt request
  | .requestPty =>
    if t.phase = .starting then
      some { t with phase := .allocated, sent := t.sent ++ [.requestPty request.size] }
    else none
  | .startShell =>
    if t.phase = .allocated then some { t with phase := .eventLoop, ready := true } else none
  | .failStartup error => if t.starts then some (t.finish request (.error error)) else none
  | .cancelStartup =>
    if t.handle ≠ .closing then none
    else if t.starts then some (t.finish request (.ok .closed))
    else if t.phase = .delaying then some { t with phase := .ended }
    else none
  | .readControl sends => t.readControl request sends
  | .otherMessage => if t.phase = .eventLoop then some t else none
  | .disconnect =>
    if t.phase = .eventLoop then some (t.finish request (.ok .disconnected)) else none
  | .resume =>
    if t.phase = .delaying then some { t with phase := .starting, initialStart := false, sent := [] }
    else none

end Terminal

end Ssh
