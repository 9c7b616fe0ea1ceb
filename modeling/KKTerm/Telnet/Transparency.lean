import KKTerm.Telnet.Options

/-!
# What reaches the terminal

Commands, option negotiations and subnegotiations disappear from the terminal
data, and a doubled IAC is one data byte. What was encoded for the wire is read
back, however it is cut into chunks.
-/

namespace Telnet

open List Receiver

def lineFeed : UInt8 := 10
def carriageReturn : UInt8 := 13

/-- The bytes for one input byte between its neighbours. -/
def encodeByte (input : List UInt8) (binaryMode : Bool) (index : Nat) (byte : UInt8) : List UInt8 :=
  let previousWasCr : Bool := 0 < index && input[index - 1]? = some carriageReturn
  let nextIsLf : Bool := input[index + 1]? = some lineFeed
  (if !binaryMode && byte = lineFeed && !previousWasCr then [carriageReturn] else []) ++
    (if byte = iac then [iac] else []) ++ [byte] ++
    (if !binaryMode && byte = carriageReturn && !nextIsLf then [0] else [])

def encodeTelnetInput (input : List UInt8) (binaryMode : Bool) : List UInt8 :=
  input.zipIdx.flatMap (fun entry => encodeByte input binaryMode entry.2 entry.1)

/-- One call of `receive` after another. Other threads may change the shared state between them. -/
def receiveChunks (protocol : TelnetProtocol) : List (List UInt8 × RuntimeState) →
    TelnetProtocol × List UInt8
  | [] => (protocol, [])
  | (chunk, runtime) :: rest =>
    let r := receive protocol chunk runtime
    let (protocol, data) := receiveChunks r.protocol rest
    (protocol, r.result.data ++ data)

def dataBytes (stream : List Token) : List UInt8 :=
  stream.filterMap (fun token =>
    match token with
    | .data byte => some byte
    | _ => none)

lemma dataBytes_append (front back : List Token) :
    dataBytes (front ++ back) = dataBytes front ++ dataBytes back :=
  filterMap_append

variable (s : Receiver)

lemma handleNegotiation_data (command option : UInt8) :
    (s.handleNegotiation command option).result.data = s.result.data := by
  unfold handleNegotiation
  split_ifs
  · unfold onWill
    simp only []
    split_ifs <;> rfl
  · unfold onWont
    simp only []
    split_ifs <;> rfl
  · unfold onDo
    simp only []
    split_ifs <;> rfl
  · unfold onDont
    simp only []
    split_ifs <;> rfl
  · rfl

lemma handleSubnegotiation_data : s.handleSubnegotiation.result.data = s.result.data := by
  unfold handleSubnegotiation
  split
  · rfl
  · split <;> rfl

/-- One byte adds the data byte that it completes. -/
lemma receiveByte_data (byte : UInt8) :
    (s.receiveByte byte).result.data = s.result.data ++ dataBytes (s.decoder.next byte).2 := by
  have state : s.decoder.state = s.protocol.state := rfl
  unfold receiveByte Decoder.next
  rw [state]
  cases s.protocol.state with
  | data =>
    simp only []
    split
    · exact (append_nil _).symm
    · rfl
  | command =>
    simp only []
    split_ifs
    · rfl
    all_goals exact (append_nil _).symm
  | option command => exact (handleNegotiation_data s command byte).trans (append_nil _).symm
  | subnegotiationOption => exact (append_nil _).symm
  | subnegotiation =>
    simp only []
    split
    all_goals exact (append_nil _).symm
  | subnegotiationCommand =>
    simp only []
    split_ifs
    · exact (append_nil _).symm
    · refine (handleSubnegotiation_data s).trans ?_
      cases s.decoder.option <;> exact (append_nil _).symm
    · exact (append_nil _).symm

lemma foldl_receiveByte (chunk : List UInt8) :
    (chunk.foldl receiveByte s).decoder = (decode s.decoder chunk).1 ∧
      (chunk.foldl receiveByte s).result.data =
        s.result.data ++ dataBytes (decode s.decoder chunk).2 := by
  induction chunk generalizing s with
  | nil => exact ⟨rfl, (append_nil _).symm⟩
  | cons byte chunk ih =>
    obtain ⟨reading, data⟩ := ih (s.receiveByte byte)
    have read := (receiveByte_reacts s byte).1
    rw [read] at reading data
    refine ⟨reading, ?_⟩
    rw [foldl_cons, data, receiveByte_data, append_assoc, ← dataBytes_append]
    rfl

/-- The reading that a protocol machine carries. -/
def TelnetProtocol.decoder (protocol : TelnetProtocol) : Decoder :=
  { state := protocol.state
    option := protocol.subnegotiationOption
    payload := protocol.subnegotiationData }

lemma receiveChunks_eq (protocol : TelnetProtocol) (calls : List (List UInt8 × RuntimeState)) :
    (receiveChunks protocol calls).1.decoder =
        (decode protocol.decoder (calls.map Prod.fst).flatten).1 ∧
      (receiveChunks protocol calls).2 =
        dataBytes (decode protocol.decoder (calls.map Prod.fst).flatten).2 := by
  induction calls generalizing protocol with
  | nil => exact ⟨rfl, rfl⟩
  | cons call calls ih =>
    obtain ⟨chunk, runtime⟩ := call
    obtain ⟨reading, data⟩ := ih (receive protocol chunk runtime).protocol
    obtain ⟨reading₁, data₁⟩ := foldl_receiveByte
      { protocol, runtime, result := { data := [], replies := [], events := [] } } chunk
    have between : (receive protocol chunk runtime).protocol.decoder =
        (decode protocol.decoder chunk).1 := reading₁
    have first : (receive protocol chunk runtime).result.data =
        dataBytes (decode protocol.decoder chunk).2 := data₁
    rw [between] at reading data
    simp only [map_cons, flatten_cons, decode_append, dataBytes_append]
    refine ⟨reading, ?_⟩
    rw [← data, ← first]
    rfl

/-- What may stand on the wire, one after another. -/
inductive Item where
  | data (bytes : List UInt8)
  | command (byte : { byte : UInt8 // byte ≠ iac ∧ byte ≠ sb ∧ ¬ isNegotiation byte })
  | negotiation (verb : { byte : UInt8 // isNegotiation byte }) (option : UInt8)
  | subnegotiation (option : UInt8) (payload : List UInt8)

def Item.wire : Item → List UInt8
  | .data bytes => encodeTelnetInput bytes true
  | .command byte => [iac, byte]
  | .negotiation verb option => [iac, verb, option]
  | .subnegotiation option payload => [iac, sb, option] ++ escapeIac payload ++ [iac, se]

def Item.text : Item → List UInt8
  | .data bytes => bytes
  | _ => []

/-- In binary mode the neighbours of a byte do not matter. -/
lemma encodeTelnetInput_binary (input : List UInt8) : encodeTelnetInput input true = escapeIac input := by
  have alone : ∀ entry : UInt8 × Nat, encodeByte input true entry.2 entry.1 =
      (fun byte => if byte = iac then [byte, iac] else [byte]) entry.1 := by
    rintro ⟨byte, index⟩
    by_cases special : byte = iac
    · simp [encodeByte, special]
    · simp [encodeByte, special]
  rw [encodeTelnetInput, funext alone, escapeIac]
  conv_rhs => rw [← zipIdx_map_fst 0 input, flatMap_map]

section Reading
variable {d : Decoder}

lemma decode_data (h : d.state = .data) (bytes : List UInt8) :
    decode d (escapeIac bytes) = (d, bytes.map Token.data) := by
  induction bytes with
  | nil => rfl
  | cons byte bytes ih =>
    have whole : escapeIac (byte :: bytes) =
        (if byte = iac then [byte, iac] else [byte]) ++ escapeIac bytes := rfl
    have first : decode d (if byte = iac then [byte, iac] else [byte]) = (d, [.data byte]) := by
      obtain ⟨state, option, payload⟩ := d
      cases h
      by_cases special : byte = iac
      · subst special
        simp [decode, Decoder.next]
      · simp [decode, Decoder.next, special]
    rw [whole, decode_append, first, ih]
    rfl

lemma dataBytes_map (bytes : List UInt8) : dataBytes (bytes.map Token.data) = bytes := by
  induction bytes with
  | nil => rfl
  | cons byte bytes ih => exact congrArg (byte :: ·) ih

/-- A subnegotiation up to its last byte. -/
lemma decode_open (h : d.state = .data) (option : UInt8) (payload : List UInt8) :
    decode d ([iac, sb, option] ++ escapeIac payload ++ [iac]) =
      ({ state := .subnegotiationCommand, option := some option, payload }, []) := by
  have opened : decode d [iac, sb, option] =
      ({ state := .subnegotiation, option := some option, payload := [] }, []) := by
    simp [decode, Decoder.next, h, isNegotiation, iac, sb, will, wont, do_, dont]
  rw [decode_append, decode_append, opened, decode_escapeIac]
  simp [decode, Decoder.next]

/-- Every item leaves the reader where it found it, with its data read. -/
lemma decode_item (h : d.state = .data) (item : Item) :
    (decode d item.wire).1.state = .data ∧ dataBytes (decode d item.wire).2 = item.text := by
  cases item with
  | data bytes =>
    rw [Item.wire, encodeTelnetInput_binary, decode_data h]
    exact ⟨h, dataBytes_map bytes⟩
  | command byte =>
    obtain ⟨byte, notIac, notSb, plain⟩ := byte
    simp [Item.wire, Item.text, decode, Decoder.next, h, notIac, notSb, plain, dataBytes]
  | negotiation verb option =>
    obtain ⟨verb, known⟩ := verb
    have notIac : verb ≠ iac := by
      rintro rfl
      exact absurd known (by decide)
    simp [Item.wire, Item.text, decode, Decoder.next, h, notIac, known, dataBytes]
  | subnegotiation option payload =>
    have split : (Item.subnegotiation option payload).wire =
        ([iac, sb, option] ++ escapeIac payload ++ [iac]) ++ [se] := by
      simp [Item.wire]
    rw [split, decode_append, decode_open h]
    simp [decode, Decoder.next, Decoder.fresh, iac, se, dataBytes, Item.text]

lemma decode_items (h : d.state = .data) (items : List Item) :
    (decode d (items.flatMap Item.wire)).1.state = .data ∧
      dataBytes (decode d (items.flatMap Item.wire)).2 = items.flatMap Item.text := by
  induction items generalizing d with
  | nil => exact ⟨h, rfl⟩
  | cons item items ih =>
    obtain ⟨between, first⟩ := decode_item h item
    obtain ⟨after, rest⟩ := ih between
    rw [flatMap_cons, decode_append, dataBytes_append, first, rest]
    exact ⟨after, rfl⟩

end Reading

/-- The window size that four bytes report. -/
def readWindowSize : List UInt8 → Option WindowSize
  | [a, b, c, d] =>
    some { cols := .ofNat (a.toNat * 256 + b.toNat), rows := .ofNat (c.toNat * 256 + d.toNat) }
  | _ => none

lemma joined_bytes (x : UInt16) :
    UInt16.ofNat ((x >>> 8).toUInt8.toNat * 256 + x.toUInt8.toNat) = x := by
  rw [← UInt16.toNat_inj]
  have small := x.toNat_lt
  simp [Nat.shiftRight_eq_div_pow]
  omega

lemma readWindowSize_bytes (size : WindowSize) :
    readWindowSize (windowSizeBytes size) = some size := by
  simp only [windowSizeBytes, readWindowSize, joined_bytes]

section Calls
variable {protocol : TelnetProtocol} {calls : List (List UInt8 × RuntimeState)}

lemma receive_items (ready : protocol.state = .data) {items : List Item}
    (wire : (calls.map Prod.fst).flatten = items.flatMap Item.wire) :
    (receiveChunks protocol calls).1.state = .data ∧
      (receiveChunks protocol calls).2 = items.flatMap Item.text := by
  obtain ⟨reading, data⟩ := receiveChunks_eq protocol calls
  obtain ⟨after, text⟩ := decode_items (d := protocol.decoder) ready items
  rw [wire] at reading data
  constructor
  · rw [← reading] at after
    exact after
  · rw [data, text]

/-- The payload is complete before the last byte of its packet. -/
lemma receive_packet (ready : protocol.state = .data) {option : UInt8} {payload : List UInt8}
    (wire : (calls.map Prod.fst).flatten = [iac, sb, option] ++ escapeIac payload ++ [iac]) :
    (receiveChunks protocol calls).1.decoder =
        { state := .subnegotiationCommand, option := some option, payload } ∧
      (receiveChunks protocol calls).2 = [] := by
  obtain ⟨reading, data⟩ := receiveChunks_eq protocol calls
  rw [wire, decode_open (d := protocol.decoder) ready] at reading data
  exact ⟨reading, data⟩

lemma dropLast_packet (option : UInt8) (payload : List UInt8) :
    ([iac, sb, option] ++ escapeIac payload ++ [iac, se]).dropLast =
      [iac, sb, option] ++ escapeIac payload ++ [iac] := by
  have split : [iac, sb, option] ++ escapeIac payload ++ [iac, se] =
      ([iac, sb, option] ++ escapeIac payload ++ [iac]) ++ [se] := by
    simp
  rw [split, dropLast_concat]

end Calls

/-- From a parser between two items, in any chunks and whatever other threads store in the
shared state: exactly the data comes out; binary input is read back; and a packet's payload, as
the subnegotiation that its last byte closes holds it, is the size or the name that was sent. -/
theorem wire_transparency (protocol : TelnetProtocol) (ready : protocol.state = .data)
    (calls : List (List UInt8 × RuntimeState)) :
    (∀ items : List Item, (calls.map Prod.fst).flatten = items.flatMap Item.wire →
      (receiveChunks protocol calls).1.state = .data ∧
        (receiveChunks protocol calls).2 = items.flatMap Item.text) ∧
    (∀ input, (calls.map Prod.fst).flatten = encodeTelnetInput input true →
      (receiveChunks protocol calls).2 = input) ∧
    (∀ size, (calls.map Prod.fst).flatten = (nawsPacket size).dropLast →
      (receiveChunks protocol calls).1.state = .subnegotiationCommand ∧
        (receiveChunks protocol calls).1.subnegotiationOption = some optionNaws ∧
        readWindowSize (receiveChunks protocol calls).1.subnegotiationData = some size) ∧
    (∀ name, (calls.map Prod.fst).flatten = (terminalTypePacket name).dropLast →
      (receiveChunks protocol calls).1.state = .subnegotiationCommand ∧
        (receiveChunks protocol calls).1.subnegotiationOption = some optionTerminalType ∧
        (receiveChunks protocol calls).1.subnegotiationData = terminalTypeIs :: name) := by
  refine ⟨fun items wire => receive_items ready wire, fun input wire => ?_, fun size wire => ?_,
    fun name wire => ?_⟩
  · have encoded : (calls.map Prod.fst).flatten = [Item.data input].flatMap Item.wire :=
      wire.trans (by simp [Item.wire])
    rw [(receive_items ready encoded).2]
    simp [Item.text]
  · rw [nawsPacket, dropLast_packet] at wire
    have held := (receive_packet ready wire).1
    refine ⟨congrArg Decoder.state held, congrArg Decoder.option held, ?_⟩
    rw [show (receiveChunks protocol calls).1.subnegotiationData = windowSizeBytes size from
      congrArg Decoder.payload held]
    exact readWindowSize_bytes size
  · have packet : terminalTypePacket name =
        [iac, sb, optionTerminalType] ++ escapeIac (terminalTypeIs :: name) ++ [iac, se] := by
      simp [terminalTypePacket, escapeIac, terminalTypeIs, iac]
    rw [packet, dropLast_packet] at wire
    have held := (receive_packet ready wire).1
    exact ⟨congrArg Decoder.state held, congrArg Decoder.option held, congrArg Decoder.payload held⟩

/-- A data byte 255 that is cut between its two copies, and a size with bytes 255. -/
theorem doubled_iac_read :
    (receiveChunks .new [([iac, 241, iac], .new ⟨80, 24⟩), ([iac, 65], .new ⟨80, 24⟩)]).2 =
        [iac, 65] ∧
      readWindowSize (receiveChunks .new
        [((nawsPacket ⟨255, 511⟩).dropLast, .new ⟨80, 24⟩)]).1.subnegotiationData =
          some ⟨255, 511⟩ := by
  constructor
  · have cut := (wire_transparency .new rfl
      [([iac, 241, iac], .new ⟨80, 24⟩), ([iac, 65], .new ⟨80, 24⟩)]).1
    exact (cut [.command ⟨241, by decide⟩, .data [iac, 65]] (by decide)).2
  · have packet := (wire_transparency .new rfl
      [((nawsPacket ⟨255, 511⟩).dropLast, .new ⟨80, 24⟩)]).2.2.1
    exact (packet ⟨255, 511⟩ (append_nil _)).2.2

end Telnet
