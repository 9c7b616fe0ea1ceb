import KKTerm.Library.Checked
import KKTerm.Library.Text

/-!
# The terminal recording renderer

A terminal output stream is replayed against a small screen and turned into
plain lines. Every index, removal, insertion and unsigned subtraction that the
program performs on the screen is a checked one here, so `none` is exactly a
panic of the recording thread. Panics are excluded in `VtText.Safety`.
-/

namespace VtText

open List hiding get set
open Checked

def maxRows : Nat := 1024

def maxCols : Nat := 4096

/-- Continuation cell behind a double-width character. -/
def wideContinuation : Char := Char.ofNat 0

inductive ParserState where
  | ground
  | escape
  | escapeIntermediate
  | csi
  | osc
  | oscEscape
  | consumeSt
  | consumeStEscape
  deriving DecidableEq, Repr

/-- `mainScreen` holds the main screen and its cursor while the alternate one is active. -/
structure VtTextRenderer where
  rows : Nat
  cols : Nat
  screen : List (List Char)
  row : Nat
  col : Nat
  wrapPending : Bool
  savedCursor : Option (Nat × Nat)
  mainScreen : Option (List (List Char) × Nat × Nat)
  state : ParserState
  csiParams : List Char
  csiHasIntermediate : Bool
  pending : List Char
  deriving DecidableEq, Repr

def blankRow (cols : Nat) : List Char :=
  replicate cols ' '

def renderRow (row : List Char) : List Char :=
  Text.trimEnd (row.filter (· ≠ wideContinuation))

/-- A finished line as it is appended to the pending text. -/
def renderLine (row : List Char) : List Char :=
  renderRow row ++ ['\n']

def inRange (c lo hi : Nat) : Bool :=
  lo ≤ c && c ≤ hi

/-- Approximate display width: 0 for combining marks, 2 for wide ranges, else 1. -/
def charDisplayWidth (ch : Char) : Nat :=
  let c := ch.toNat
  if inRange c 0x0300 0x036f || inRange c 0x1ab0 0x1aff || inRange c 0x20d0 0x20ff ||
      inRange c 0x200b 0x200f || inRange c 0xfe00 0xfe0f then 0
  else if inRange c 0x1100 0x115f || inRange c 0x2e80 0x303e || inRange c 0x3041 0x33ff ||
      inRange c 0x3400 0x4dbf || inRange c 0x4e00 0x9fff || inRange c 0xa000 0xa4cf ||
      inRange c 0xa960 0xa97f || inRange c 0xac00 0xd7a3 || inRange c 0xf900 0xfaff ||
      inRange c 0xfe30 0xfe4f || inRange c 0xff00 0xff60 || inRange c 0xffe0 0xffe6 ||
      inRange c 0x1f300 0x1f9ff || inRange c 0x20000 0x3fffd then 2
  else 1

/-- `usize::clamp`. -/
def clamp (lo hi n : Nat) : Nat :=
  if n < lo then lo else if hi < n then hi else n

namespace VtTextRenderer

def new (rows cols : UInt16) : VtTextRenderer :=
  let rows := clamp 1 maxRows rows.toNat
  let cols := clamp 1 maxCols cols.toNat
  { rows, cols
    screen := replicate rows (blankRow cols)
    row := 0
    col := 0
    wrapPending := false
    savedCursor := none
    mainScreen := none
    state := .ground
    csiParams := []
    csiHasIntermediate := false
    pending := [] }

/-- `row.min(self.rows - 1)`, with the subtraction checked. -/
def clampRow (s : VtTextRenderer) (row : Nat) : Option Nat := do
  pure (min row (← sub s.rows 1))

def clampCol (s : VtTextRenderer) (col : Nat) : Option Nat := do
  pure (min col (← sub s.cols 1))

def setCell (s : VtTextRenderer) (row col : Nat) (ch : Char) : Option VtTextRenderer := do
  let line ← get s.screen row
  let line ← set line col ch
  let screen ← set s.screen row line
  pure { s with screen }

def cell (s : VtTextRenderer) (row col : Nat) : Option Char := do
  let line ← get s.screen row
  get line col

/-- Overwriting half of a double-width character orphans the other half, which
becomes a space. -/
def clearWideCell (s : VtTextRenderer) (row col : Nat) : Option VtTextRenderer := do
  let here ← s.cell row col
  if here = wideContinuation then
    let s ← (if col > 0 then (sub col 1).bind (fun left => s.setCell row left ' ') else some s)
    s.setCell row col ' '
  else if col + 1 < s.cols then
    let next ← s.cell row (col + 1)
    if next = wideContinuation then s.setCell row (col + 1) ' ' else pure s
  else pure s

def scrollUpOne (s : VtTextRenderer) : Option VtTextRenderer := do
  let (top, screen) ← remove s.screen 0
  let pending := if s.mainScreen.isNone then s.pending ++ renderLine top else s.pending
  pure { s with screen := screen ++ [blankRow s.cols], pending }

def scrollUp (s : VtTextRenderer) (count : Nat) : Option VtTextRenderer :=
  (range count).foldlM (fun s _ => s.scrollUpOne) s

/-- `Vec::pop` of an empty screen is harmless, the insertion at 0 is in range. -/
def scrollDownOne (s : VtTextRenderer) : Option VtTextRenderer := do
  let screen ← insert s.screen.dropLast 0 (blankRow s.cols)
  pure { s with screen }

def scrollDown (s : VtTextRenderer) (count : Nat) : Option VtTextRenderer :=
  (range count).foldlM (fun s _ => s.scrollDownOne) s

def lineFeed (s : VtTextRenderer) : Option VtTextRenderer :=
  if s.row + 1 < s.rows then some { s with row := s.row + 1 } else s.scrollUp 1

def reverseLineFeed (s : VtTextRenderer) : Option VtTextRenderer :=
  if s.row > 0 then do
    let row ← sub s.row 1
    pure { s with row }
  else s.scrollDown 1

def restoreCursor (s : VtTextRenderer) : Option VtTextRenderer :=
  match s.savedCursor with
  | some (row, col) => do
    let row ← s.clampRow row
    let col ← s.clampCol col
    pure { s with row, col }
  | none => some s

/-- The pending wrap of the last column is resolved by the next printed character. -/
def resolveWrap (s : VtTextRenderer) : Option VtTextRenderer :=
  if s.wrapPending then do
    let s ← lineFeed { s with col := 0 }
    pure { s with wrapPending := false }
  else some s

def putChar (s : VtTextRenderer) (ch : Char) (width : Nat) : Option VtTextRenderer := do
  let s ← s.clearWideCell s.row s.col
  if width = 2 then
    let s ← s.clearWideCell s.row (s.col + 1)
    let s ← s.setCell s.row s.col ch
    s.setCell s.row (s.col + 1) wideContinuation
  else s.setCell s.row s.col ch

def advance (s : VtTextRenderer) (width : Nat) : Option VtTextRenderer :=
  if s.col + width = s.cols then do
    let col ← sub s.cols 1
    pure { s with col, wrapPending := true }
  else some { s with col := s.col + width }

def print (s : VtTextRenderer) (ch : Char) : Option VtTextRenderer :=
  let width := charDisplayWidth ch
  if width = 0 then some s
  else do
    let width := min width s.cols
    let s ← s.resolveWrap
    let s ← (if s.col + width > s.cols then lineFeed { s with col := 0 } else some s)
    let s ← s.putChar ch width
    s.advance width

/-- Erase the cells of one row, from `start` up to but not including `stop`. -/
def eraseCells (s : VtTextRenderer) (start stop : Nat) : Option VtTextRenderer :=
  (range' start (stop - start)).foldlM
    (fun s col => do
      let s ← s.clearWideCell s.row col
      s.setCell s.row col ' ') s

def eraseLine (s : VtTextRenderer) (mode : Nat) : Option VtTextRenderer :=
  match mode with
  | 0 => s.eraseCells s.col s.cols
  | 1 => s.eraseCells 0 (min (s.col + 1) s.cols)
  | 2 => s.eraseCells 0 s.cols
  | _ => some s

/-- `fill(' ')` on the rows from `start` up to but not including `stop`. -/
def fillRows (s : VtTextRenderer) (start stop : Nat) : Option VtTextRenderer :=
  (range' start (stop - start)).foldlM
    (fun s row => do
      let line ← get s.screen row
      let screen ← set s.screen row (replicate line.length ' ')
      pure { s with screen }) s

def isBlankCell (c : Char) : Bool :=
  c = ' ' || c = wideContinuation

/-- One past the last row that shows anything; `rposition` plus one. -/
def contentRows (screen : List (List Char)) : Nat :=
  (screen.reverse.dropWhile (fun row => row.all isBlankCell)).length

/-- Flush every viewport line up to the last visible one and leave a blank
screen; alternate-screen content is discarded. -/
def flushScreen (s : VtTextRenderer) : Option VtTextRenderer :=
  if s.mainScreen.isSome then
    some { s with screen := s.screen.map (fun row => replicate row.length ' ') }
  else
    (range (contentRows s.screen)).foldlM
      (fun s index => do
        let line ← get s.screen index
        let screen ← set s.screen index (replicate line.length ' ')
        pure { s with screen, pending := s.pending ++ renderLine line }) s

def eraseDisplay (s : VtTextRenderer) (mode : Nat) : Option VtTextRenderer :=
  match mode with
  | 0 => do
    let s ← s.eraseLine 0
    s.fillRows (s.row + 1) s.rows
  | 1 => do
    let s ← s.eraseLine 1
    s.fillRows 0 s.row
  | 2 | 3 => s.flushScreen
  | _ => some s

def insertChars (s : VtTextRenderer) (count : Nat) : Option VtTextRenderer := do
  let room ← sub s.cols s.col
  let count := min count room
  let s ← s.clearWideCell s.row s.col
  let line ← get s.screen s.row
  let kept ← sub s.cols count
  let line ← (range count).foldlM (fun line _ => insert line s.col ' ') (line.take kept)
  let screen ← set s.screen s.row line
  pure { s with screen }

/-- Deleting up to the middle of a wide pair leaves an orphan continuation at the seam. -/
def deleteChars (s : VtTextRenderer) (count : Nat) : Option VtTextRenderer := do
  let room ← sub s.cols s.col
  let count := min count room
  let s ← s.clearWideCell s.row s.col
  let line ← get s.screen s.row
  let line ← drain line s.col (s.col + count)
  let line := Checked.resize line s.cols ' '
  let seam ← get line s.col
  let line ← (if seam = wideContinuation then set line s.col ' ' else some line)
  let screen ← set s.screen s.row line
  pure { s with screen }

def eraseChars (s : VtTextRenderer) (count : Nat) : Option VtTextRenderer :=
  s.eraseCells s.col (min (s.col + count) s.cols)

def insertLines (s : VtTextRenderer) (count : Nat) : Option VtTextRenderer := do
  let room ← sub s.rows s.row
  (range (min count room)).foldlM
    (fun s _ => do
      let screen ← insert s.screen.dropLast s.row (blankRow s.cols)
      pure { s with screen }) s

def deleteLines (s : VtTextRenderer) (count : Nat) : Option VtTextRenderer := do
  let room ← sub s.rows s.row
  (range (min count room)).foldlM
    (fun s _ => do
      let (_, screen) ← remove s.screen s.row
      pure { s with screen := screen ++ [blankRow s.cols] }) s

/-- The loop `while screen.len() > rows`: lines above the cursor leave at the
top and are recorded when `record` holds, then lines leave at the bottom. -/
def shrinkTo (record : Bool) (rows : Nat) : Nat → VtTextRenderer → Option VtTextRenderer
  | 0, s => some s
  | fuel + 1, s =>
    if s.screen.length > rows then
      if s.row > 0 then do
        let (top, screen) ← remove s.screen 0
        let row ← sub s.row 1
        let pending := if record then s.pending ++ renderLine top else s.pending
        shrinkTo record rows fuel { s with screen, row, pending }
      else shrinkTo record rows fuel { s with screen := s.screen.dropLast }
    else some s

/-- `for row in screen { row.resize(cols, ' ') }`. -/
def fitCols (s : VtTextRenderer) (cols : Nat) : VtTextRenderer :=
  { s with screen := s.screen.map (fun row => Checked.resize row cols ' ') }

/-- The loop `while screen.len() < rows`. -/
def growTo (s : VtTextRenderer) (rows cols : Nat) : VtTextRenderer :=
  { s with screen := s.screen ++ replicate (rows - s.screen.length) (blankRow cols) }

/-- Re-fit the restored main screen to the current dimensions. -/
def normalizeScreen (s : VtTextRenderer) : Option VtTextRenderer := do
  let s := s.fitCols s.cols
  let s ← shrinkTo true s.rows s.screen.length s
  let s := s.growTo s.rows s.cols
  let row ← s.clampRow s.row
  let col ← s.clampCol s.col
  pure { s with row, col }

def resize (s : VtTextRenderer) (rows cols : UInt16) : Option VtTextRenderer :=
  let rows := clamp 1 maxRows rows.toNat
  let cols := clamp 1 maxCols cols.toNat
  if rows = s.rows ∧ cols = s.cols then some s
  else do
    let s := { s.fitCols cols with cols }
    let s ← shrinkTo s.mainScreen.isNone rows s.screen.length s
    let s := { s.growTo rows cols with rows }
    let row ← s.clampRow s.row
    let col ← s.clampCol s.col
    pure { s with row, col, wrapPending := false }

/-- The modes that select the alternate screen. -/
def isScreenMode (mode : Nat) : Bool :=
  mode = 47 || mode = 1047 || mode = 1049

def setPrivateMode (enable : Bool) (s : VtTextRenderer) (mode : Nat) : Option VtTextRenderer :=
  if isScreenMode mode then
    if enable ∧ s.mainScreen.isNone then
      some { s with
        screen := replicate s.rows (blankRow s.cols)
        mainScreen := some (s.screen, s.row, s.col)
        row := 0
        col := 0 }
    else if enable then some s
    else match s.mainScreen with
      | some (main, row, col) =>
        normalizeScreen { s with screen := main, mainScreen := none, row, col }
      | none => some s
  else if mode = 1048 then
    if enable then some { s with savedCursor := some (s.row, s.col) } else s.restoreCursor
  else some s

def setPrivateModes (s : VtTextRenderer) (params : List Nat) (enable : Bool) :
    Option VtTextRenderer :=
  params.foldlM (setPrivateMode enable) s

end VtTextRenderer

def isPrivateMarker (c : Char) : Bool :=
  c = '<' || c = '=' || c = '>' || c = '?'

def usizeMax : Nat := 2 ^ 64 - 1

def u16Max : Nat := 65535

/-- The numeric parameters of a control sequence; a missing, unreadable or
overlong number is 0, and only the part before a colon counts. -/
def csiParamValues (csiParams : List Char) : List Nat :=
  (Text.split ';' (csiParams.dropWhile isPrivateMarker)).map (fun part =>
    min ((Text.parseUnsigned usizeMax ((Text.split ':' part).headD [])).getD 0) u16Max)

def csiIsPrivate (csiParams : List Char) : Bool :=
  (csiParams.head?.map isPrivateMarker).getD false

/-- A parameter with its default, which also replaces an explicit 0. -/
def param (params : List Nat) (index default : Nat) : Nat :=
  match params[index]? with
  | some value => if value ≠ 0 then value else default
  | none => default

namespace VtTextRenderer

def csiDispatch (s : VtTextRenderer) (finalByte : Char) : Option VtTextRenderer :=
  let s := { s with wrapPending := false }
  let isPrivate := csiIsPrivate s.csiParams
  let params := csiParamValues s.csiParams
  let p0 := param params 0 1
  match finalByte with
  | 'A' => some { s with row := s.row - p0 }
  | 'B' => do
    let row ← s.clampRow (s.row + p0)
    pure { s with row }
  | 'C' => do
    let col ← s.clampCol (s.col + p0)
    pure { s with col }
  | 'D' => some { s with col := s.col - p0 }
  | 'E' => do
    let row ← s.clampRow (s.row + p0)
    pure { s with col := 0, row }
  | 'F' => some { s with col := 0, row := s.row - p0 }
  | 'G' | '`' => do
    let col ← s.clampCol (← sub p0 1)
    pure { s with col }
  | 'H' | 'f' => do
    let row ← s.clampRow (← sub p0 1)
    let col ← s.clampCol (← sub (param params 1 1) 1)
    pure { s with row, col }
  | 'd' => do
    let row ← s.clampRow (← sub p0 1)
    pure { s with row }
  | 'J' => s.eraseDisplay (params.headD 0)
  | 'K' => s.eraseLine (params.headD 0)
  | '@' => s.insertChars p0
  | 'P' => s.deleteChars p0
  | 'X' => s.eraseChars p0
  | 'L' => s.insertLines p0
  | 'M' => s.deleteLines p0
  | 'S' => s.scrollUp (min p0 s.rows)
  | 'T' => s.scrollDown (min p0 s.rows)
  | 'h' => if isPrivate then s.setPrivateModes params true else some s
  | 'l' => if isPrivate then s.setPrivateModes params false else some s
  | 's' => some (if isPrivate then s else { s with savedCursor := some (s.row, s.col) })
  | 'u' => if isPrivate then some s else s.restoreCursor
  -- XTWINOPS 8, the resize report.
  | 't' =>
    match params with
    | [8, rows, cols] =>
      if rows > 0 ∧ cols > 0 then s.resize (UInt16.ofNat rows) (UInt16.ofNat cols) else some s
    | _ => some s
  | _ => some s

def isC1StringStart (ch : Char) : Bool :=
  ch.toNat = 0x90 || ch.toNat = 0x98 || ch.toNat = 0x9e || ch.toNat = 0x9f

def beginCsi (s : VtTextRenderer) : VtTextRenderer :=
  { s with csiParams := [], csiHasIntermediate := false, state := .csi }

def stepGround (s : VtTextRenderer) (ch : Char) : Option VtTextRenderer :=
  let c := ch.toNat
  if c = 0x1b then some { s with state := .escape }
  else if isC1StringStart ch then some { s with state := .consumeSt }
  else if c = 0x9b then some s.beginCsi
  else if c = 0x9d then some { s with state := .osc }
  else if c = 0x9c then some s
  else if c = 0x0d then some { s with col := 0, wrapPending := false }
  else if c = 0x0a ∨ c = 0x0b ∨ c = 0x0c then lineFeed { s with wrapPending := false }
  else if c = 0x08 then some { s with wrapPending := false, col := s.col - 1 }
  else if c = 0x09 then do
    let col ← s.clampCol ((s.col / 8 + 1) * 8)
    pure { s with wrapPending := false, col }
  else if c < 0x20 ∨ (0x7f ≤ c ∧ c ≤ 0x9f) then some s
  else s.print ch

def stepEscape (s : VtTextRenderer) (ch : Char) : Option VtTextRenderer :=
  let s := { s with wrapPending := false, state := .ground }
  match ch with
  | '[' => some s.beginCsi
  | ']' => some { s with state := .osc }
  | 'P' | 'X' | '^' | '_' => some { s with state := .consumeSt }
  | '7' => some { s with savedCursor := some (s.row, s.col) }
  | '8' => s.restoreCursor
  | 'D' => s.lineFeed
  | 'E' => lineFeed { s with col := 0 }
  | 'M' => s.reverseLineFeed
  | 'c' => do
    let s ← s.flushScreen
    pure { s with row := 0, col := 0, savedCursor := none }
  | c => some (if 0x20 ≤ c.toNat ∧ c.toNat ≤ 0x2f then { s with state := .escapeIntermediate } else s)

def stepCsi (s : VtTextRenderer) (ch : Char) : Option VtTextRenderer :=
  let c := ch.toNat
  if 0x30 ≤ c ∧ c ≤ 0x3f then
    some (if s.csiParams.length < 64 then { s with csiParams := s.csiParams ++ [ch] } else s)
  else if 0x20 ≤ c ∧ c ≤ 0x2f then some { s with csiHasIntermediate := true }
  else if 0x40 ≤ c ∧ c ≤ 0x7e then
    let s := { s with state := .ground }
    if s.csiHasIntermediate then some s else s.csiDispatch ch
  else if c = 0x1b then some { s with state := .escape }
  -- C0 controls execute without aborting the sequence.
  else if c < 0x20 then s.stepGround ch
  else some { s with state := .ground }

/-- A string payload ends at BEL or ST, whose escape form needs one more character. -/
def stepString (s : VtTextRenderer) (ch : Char) (onEscape : ParserState) : VtTextRenderer :=
  if ch.toNat = 0x07 ∨ ch.toNat = 0x9c then { s with state := .ground }
  else if ch.toNat = 0x1b then { s with state := onEscape }
  else s

def stepStringEscape (s : VtTextRenderer) (ch : Char) : Option VtTextRenderer :=
  if ch = '\\' then some { s with state := .ground } else stepEscape { s with state := .escape } ch

def step (s : VtTextRenderer) (ch : Char) : Option VtTextRenderer :=
  match s.state with
  | .ground => s.stepGround ch
  | .escape => s.stepEscape ch
  | .escapeIntermediate => some (if ch.toNat ≥ 0x30 then { s with state := .ground } else s)
  | .csi => s.stepCsi ch
  | .osc => some (s.stepString ch .oscEscape)
  | .oscEscape => s.stepStringEscape ch
  | .consumeSt => some (s.stepString ch .consumeStEscape)
  | .consumeStEscape => s.stepStringEscape ch

/-- The characters of a chunk, without handing out the pending text. -/
def feedChars (s : VtTextRenderer) (data : List Char) : Option VtTextRenderer :=
  data.foldlM step s

/-- `std::mem::take(&mut self.pending)`. -/
def takePending (s : VtTextRenderer) : List Char × VtTextRenderer :=
  (s.pending, { s with pending := [] })

def feed (s : VtTextRenderer) (data : List Char) : Option (List Char × VtTextRenderer) :=
  (s.feedChars data).map takePending

/-- The cursor is clamped before the saved main screen is re-fitted. -/
def restoreForFinish (s : VtTextRenderer) : Option VtTextRenderer :=
  match s.mainScreen with
  | some (main, row, col) => do
    let row ← s.clampRow row
    let col ← s.clampCol col
    normalizeScreen { s with screen := main, mainScreen := none, row, col }
  | none => some s

def finish (s : VtTextRenderer) : Option (List Char × VtTextRenderer) := do
  let s ← s.restoreForFinish
  let s ← s.flushScreen
  pure (takePending { s with row := 0, col := 0, wrapPending := false })

/-- The text handed out by a last chunk and the finish after it. -/
def record (s : VtTextRenderer) (data : List Char) : Option (List Char) := do
  let (text, s) ← s.feed data
  let (rest, _) ← s.finish
  pure (text ++ rest)

end VtTextRenderer

end VtText
