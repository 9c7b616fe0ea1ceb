import Mathlib.Data.UInt

/-!
# The Telnet protocol machine

Received bytes are split into terminal data, option commands and
subnegotiations, and option commands are answered. The machine keeps four
option sets of its own and shares two flags and the window size with the rest
of the session.
-/

namespace Telnet

def iac : UInt8 := 255
def dont : UInt8 := 254
def do_ : UInt8 := 253
def wont : UInt8 := 252
def will : UInt8 := 251
def sb : UInt8 := 250
def se : UInt8 := 240

def optionBinary : UInt8 := 0
def optionEcho : UInt8 := 1
def optionSuppressGoAhead : UInt8 := 3
def optionTerminalType : UInt8 := 24
def optionNaws : UInt8 := 31
def optionLinemode : UInt8 := 34

def terminalTypeIs : UInt8 := 0
def terminalTypeSend : UInt8 := 1

/-- `XTERM` and `VT100`. -/
def terminalTypes : List (List UInt8) :=
  [[88, 84, 69, 82, 77], [86, 84, 49, 48, 48]]

inductive ParseState where
  | data
  | command
  | option (command : UInt8)
  | subnegotiationOption
  | subnegotiation
  | subnegotiationCommand
  deriving DecidableEq, Repr

structure TelnetProtocol where
  state : ParseState
  remoteEnabled : Finset UInt8
  localEnabled : Finset UInt8
  remoteRefused : Finset UInt8
  localRefused : Finset UInt8
  subnegotiationOption : Option UInt8
  subnegotiationData : List UInt8
  terminalTypeIndex : Nat
  deriving DecidableEq

structure WindowSize where
  cols : UInt16
  rows : UInt16
  deriving DecidableEq, Repr

structure RuntimeState where
  localBinary : Bool
  nawsEnabled : Bool
  windowSize : WindowSize
  deriving DecidableEq, Repr

inductive NegotiationAction where
  | acceptedRemote
  | duplicateIgnored
  | refusedForceCharacterMode
  | refusedUnsupported
  | remoteDisabled
  | enabledLocal
  | localDisabled
  deriving DecidableEq, Repr

inductive ProtocolEvent where
  | negotiation (command option : UInt8) (action : NegotiationAction)
  | terminalTypeSent (terminalType : List UInt8)
  | subnegotiationIgnored (option : UInt8) (payloadBytes : Nat)
  deriving DecidableEq, Repr

structure ParseResult where
  data : List UInt8
  replies : List UInt8
  events : List ProtocolEvent
  deriving DecidableEq, Repr

/-- What one call of `receive` works on. -/
structure Receiver where
  protocol : TelnetProtocol
  runtime : RuntimeState
  result : ParseResult
  deriving DecidableEq

def RuntimeState.new (size : WindowSize) : RuntimeState :=
  { localBinary := false, nawsEnabled := false, windowSize := size }

def TelnetProtocol.new : TelnetProtocol :=
  { state := .data
    remoteEnabled := ∅
    localEnabled := ∅
    remoteRefused := ∅
    localRefused := ∅
    subnegotiationOption := none
    subnegotiationData := []
    terminalTypeIndex := 0 }

def supportsRemoteOption (option : UInt8) : Bool :=
  option = optionBinary || option = optionEcho || option = optionSuppressGoAhead

def supportsLocalOption (option : UInt8) : Bool :=
  option = optionBinary || option = optionSuppressGoAhead || option = optionTerminalType ||
    option = optionNaws

/-- Every IAC byte of a payload is doubled. -/
def escapeIac (payload : List UInt8) : List UInt8 :=
  payload.flatMap (fun byte => if byte = iac then [byte, iac] else [byte])

def terminalTypePacket (terminalType : List UInt8) : List UInt8 :=
  [iac, sb, optionTerminalType, terminalTypeIs] ++ escapeIac terminalType ++ [iac, se]

def windowSizeBytes (size : WindowSize) : List UInt8 :=
  [(size.cols >>> 8).toUInt8, size.cols.toUInt8, (size.rows >>> 8).toUInt8, size.rows.toUInt8]

def nawsPacket (size : WindowSize) : List UInt8 :=
  [iac, sb, optionNaws] ++ escapeIac (windowSizeBytes size) ++ [iac, se]

def refusal (option : UInt8) : NegotiationAction :=
  if option = optionLinemode then .refusedForceCharacterMode else .refusedUnsupported

def isNegotiation (byte : UInt8) : Bool :=
  byte = will || byte = wont || byte = do_ || byte = dont

namespace Receiver

def reply (s : Receiver) (bytes : List UInt8) : Receiver :=
  { s with result := { s.result with replies := s.result.replies ++ bytes } }

def emit (s : Receiver) (event : ProtocolEvent) : Receiver :=
  { s with result := { s.result with events := s.result.events ++ [event] } }

def push (s : Receiver) (byte : UInt8) : Receiver :=
  { s with result := { s.result with data := s.result.data ++ [byte] } }

def goto (s : Receiver) (state : ParseState) : Receiver :=
  { s with protocol := { s.protocol with state } }

/-- The case `WILL`. -/
def onWill (s : Receiver) (option : UInt8) : Receiver :=
  if supportsRemoteOption option then
    let fresh : Bool := option ∉ s.protocol.remoteEnabled
    let s := { s with protocol := { s.protocol with
      remoteRefused := s.protocol.remoteRefused.erase option
      remoteEnabled := insert option s.protocol.remoteEnabled } }
    if fresh then
      (s.reply [iac, do_, option]).emit (.negotiation will option .acceptedRemote)
    else s.emit (.negotiation will option .duplicateIgnored)
  else
    let fresh : Bool := option ∉ s.protocol.remoteRefused
    let s := { s with protocol := { s.protocol with
      remoteRefused := insert option s.protocol.remoteRefused } }
    if fresh then
      (s.reply [iac, dont, option]).emit (.negotiation will option (refusal option))
    else s

/-- The case `WONT`. -/
def onWont (s : Receiver) (option : UInt8) : Receiver :=
  let wasEnabled : Bool := option ∈ s.protocol.remoteEnabled
  let s := { s with protocol := { s.protocol with
    remoteEnabled := s.protocol.remoteEnabled.erase option
    remoteRefused := s.protocol.remoteRefused.erase option } }
  let s := if wasEnabled then s.reply [iac, dont, option] else s
  s.emit (.negotiation wont option .remoteDisabled)

/-- The case `DO`; enabling NAWS answers with the current window size. -/
def onDo (s : Receiver) (option : UInt8) : Receiver :=
  if supportsLocalOption option then
    let fresh : Bool := option ∉ s.protocol.localEnabled
    let s := { s with protocol := { s.protocol with
      localRefused := s.protocol.localRefused.erase option
      localEnabled := insert option s.protocol.localEnabled } }
    if fresh then
      let s := s.reply [iac, will, option]
      let s :=
        if option = optionBinary then
          { s with runtime := { s.runtime with localBinary := true } }
        else if option = optionNaws then
          { s with runtime := { s.runtime with nawsEnabled := true } }.reply
            (nawsPacket s.runtime.windowSize)
        else s
      s.emit (.negotiation do_ option .enabledLocal)
    else s.emit (.negotiation do_ option .duplicateIgnored)
  else
    let fresh : Bool := option ∉ s.protocol.localRefused
    let s := { s with protocol := { s.protocol with
      localRefused := insert option s.protocol.localRefused } }
    if fresh then
      (s.reply [iac, wont, option]).emit (.negotiation do_ option (refusal option))
    else s

/-- The case `DONT`. -/
def onDont (s : Receiver) (option : UInt8) : Receiver :=
  let wasEnabled : Bool := option ∈ s.protocol.localEnabled
  let s := { s with protocol := { s.protocol with
    localEnabled := s.protocol.localEnabled.erase option
    localRefused := s.protocol.localRefused.erase option } }
  let s := if wasEnabled then s.reply [iac, wont, option] else s
  let s :=
    if option = optionBinary then
      { s with runtime := { s.runtime with localBinary := false } }
    else if option = optionNaws then
      { s with runtime := { s.runtime with nawsEnabled := false } }
    else s
  s.emit (.negotiation dont option .localDisabled)

def handleNegotiation (s : Receiver) (command option : UInt8) : Receiver :=
  if command = will then s.onWill option
  else if command = wont then s.onWont option
  else if command = do_ then s.onDo option
  else if command = dont then s.onDont option
  else s

def handleSubnegotiation (s : Receiver) : Receiver :=
  match s.protocol.subnegotiationOption with
  | none => s
  | some option =>
    if option = optionTerminalType ∧ optionTerminalType ∈ s.protocol.localEnabled ∧
        s.protocol.subnegotiationData.head? = some terminalTypeSend then
      let index := s.protocol.terminalTypeIndex
      let terminalType := terminalTypes.getD (min index (terminalTypes.length - 1)) []
      let s := { s with protocol := { s.protocol with
        terminalTypeIndex := if index ≥ terminalTypes.length then 0 else index + 1 } }
      (s.reply (terminalTypePacket terminalType)).emit (.terminalTypeSent terminalType)
    else s.emit (.subnegotiationIgnored option s.protocol.subnegotiationData.length)

def receiveByte (s : Receiver) (byte : UInt8) : Receiver :=
  match s.protocol.state with
  | .data => if byte = iac then s.goto .command else s.push byte
  | .command =>
    if byte = iac then (s.push iac).goto .data
    else if isNegotiation byte then s.goto (.option byte)
    else if byte = sb then s.goto .subnegotiationOption
    else s.goto .data
  | .option command => (s.handleNegotiation command byte).goto .data
  | .subnegotiationOption =>
    { s with protocol := { s.protocol with
      subnegotiationOption := some byte, subnegotiationData := [], state := .subnegotiation } }
  | .subnegotiation =>
    if byte = iac then s.goto .subnegotiationCommand
    else { s with protocol := { s.protocol with
      subnegotiationData := s.protocol.subnegotiationData ++ [byte] } }
  | .subnegotiationCommand =>
    if byte = iac then
      { s with protocol := { s.protocol with
        subnegotiationData := s.protocol.subnegotiationData ++ [iac], state := .subnegotiation } }
    else if byte = se then
      let s := s.handleSubnegotiation
      { s with protocol := { s.protocol with
        subnegotiationOption := none, subnegotiationData := [], state := .data } }
    else s.goto .subnegotiation

end Receiver

def receive (protocol : TelnetProtocol) (input : List UInt8) (runtime : RuntimeState) :
    Receiver :=
  input.foldl Receiver.receiveByte
    { protocol, runtime, result := { data := [], replies := [], events := [] } }

end Telnet

/-!
# The Telnet wire

A byte stream is read as data bytes, option commands and subnegotiations. The
same reading serves both directions: it says what the peer asked for in the
received bytes, and what it was told in the reply bytes.
-/

namespace Telnet

inductive Token where
  | data (byte : UInt8)
  | command (command option : UInt8)
  | subnegotiation (option : UInt8) (payload : List UInt8)
  deriving DecidableEq, Repr

structure Decoder where
  state : ParseState
  option : Option UInt8
  payload : List UInt8
  deriving DecidableEq, Repr

namespace Decoder

def fresh : Decoder :=
  { state := .data, option := none, payload := [] }

/-- One byte of the stream, with the token it completes. -/
def next (d : Decoder) (byte : UInt8) : Decoder × List Token :=
  match d.state with
  | .data => if byte = iac then ({ d with state := .command }, []) else (d, [.data byte])
  | .command =>
    if byte = iac then ({ d with state := .data }, [.data iac])
    else if isNegotiation byte then ({ d with state := .option byte }, [])
    else if byte = sb then ({ d with state := .subnegotiationOption }, [])
    else ({ d with state := .data }, [])
  | .option command => ({ d with state := .data }, [.command command byte])
  | .subnegotiationOption =>
    ({ state := .subnegotiation, option := some byte, payload := [] }, [])
  | .subnegotiation =>
    if byte = iac then ({ d with state := .subnegotiationCommand }, [])
    else ({ d with payload := d.payload ++ [byte] }, [])
  | .subnegotiationCommand =>
    if byte = iac then
      ({ d with state := .subnegotiation, payload := d.payload ++ [iac] }, [])
    else if byte = se then
      (fresh, d.option.toList.map (fun option => .subnegotiation option d.payload))
    else ({ d with state := .subnegotiation }, [])

end Decoder

def decode (d : Decoder) : List UInt8 → Decoder × List Token
  | [] => (d, [])
  | byte :: rest =>
    let (d', token) := d.next byte
    let (d'', tokens) := decode d' rest
    (d'', token ++ tokens)

def tokens (stream : List UInt8) : List Token :=
  (decode .fresh stream).2

lemma decode_append (d : Decoder) (front back : List UInt8) :
    decode d (front ++ back) = ((decode (decode d front).1 back).1,
        (decode d front).2 ++ (decode (decode d front).1 back).2) := by
  induction front generalizing d with
  | nil => rfl
  | cons byte front ih => simp only [List.cons_append, decode, ih, List.append_assoc]

/-- The bytes are read as the tokens and leave no open sequence behind. -/
def Framed (bytes : List UInt8) (out : List Token) : Prop :=
  decode .fresh bytes = (.fresh, out)

lemma Framed.nil : Framed [] [] :=
  rfl

lemma Framed.append {front back : List UInt8} {out out' : List Token} (h : Framed front out)
    (h' : Framed back out') : Framed (front ++ back) (out ++ out') := by
  unfold Framed at *
  rw [decode_append, h, h']

lemma Framed.tokens_eq {bytes : List UInt8} {out : List Token} (h : Framed bytes out) :
    tokens bytes = out := by
  rw [tokens, h]

lemma framed_command {command : UInt8} (known : isNegotiation command) (option : UInt8) :
    Framed [iac, command, option] [.command command option] := by
  have notIac : command ≠ iac := by
    rintro rfl
    exact absurd known (by decide)
  simp [Framed, decode, Decoder.next, Decoder.fresh, notIac, known]

lemma decode_escapeIac (option : UInt8) (read payload : List UInt8) :
    decode { state := .subnegotiation, option := some option, payload := read }
        (escapeIac payload) =
      ({ state := .subnegotiation, option := some option, payload := read ++ payload }, []) := by
  induction payload generalizing read with
  | nil => simp [escapeIac, decode]
  | cons byte payload ih =>
    have rest := ih (read ++ [byte])
    unfold escapeIac at rest ⊢
    rw [List.flatMap_cons, decode_append]
    by_cases h : byte = iac
    · subst h
      simp [decode, Decoder.next, rest]
    · simp [decode, Decoder.next, h, rest]

lemma framed_subnegotiation (option : UInt8) (payload : List UInt8) :
    Framed ([iac, sb, option] ++ escapeIac payload ++ [iac, se])
      [.subnegotiation option payload] := by
  have opened : decode .fresh [iac, sb, option] =
      ({ state := .subnegotiation, option := some option, payload := [] }, []) := by
    simp [decode, Decoder.next, Decoder.fresh, isNegotiation, iac, sb, will, wont, do_, dont]
  unfold Framed
  rw [decode_append, decode_append, opened, decode_escapeIac]
  simp [decode, Decoder.next, iac, se]

/-- The window sizes that a stream of tokens reports. -/
def windowSizes (stream : List Token) : List (List UInt8) :=
  stream.filterMap (fun token =>
    match token with
    | .subnegotiation option payload => if option = optionNaws then some payload else none
    | _ => none)

lemma windowSizes_append (front back : List Token) :
    windowSizes (front ++ back) = windowSizes front ++ windowSizes back :=
  List.filterMap_append

lemma framed_nawsPacket (size : WindowSize) :
    Framed (nawsPacket size) [.subnegotiation optionNaws (windowSizeBytes size)] :=
  framed_subnegotiation optionNaws _

lemma framed_terminalTypePacket (terminalType : List UInt8) :
    Framed (terminalTypePacket terminalType)
      [.subnegotiation optionTerminalType (terminalTypeIs :: terminalType)] :=
  framed_subnegotiation optionTerminalType (terminalTypeIs :: terminalType)

end Telnet
