import KKTerm.Library.Negotiation
import KKTerm.Telnet.Protocol

/-!
# Option negotiation

For every option, the remote direction (`WILL`/`WONT` answered by `DO`/`DONT`)
and the local one (`DO`/`DONT` answered by `WILL`/`WONT`) are each one
`Negotiation.Side`. The protocol machine is shown to run all these sides at
once; what holds of a side then holds of the protocol and of its reply bytes.
-/

namespace Telnet

open Negotiation List

/-- The offers (`yes`) and withdrawals (`no`) of an option among some tokens. -/
def offers (yes no option : UInt8) (stream : List Token) : List Bool :=
  stream.filterMap (fun token =>
    match token with
    | .command command o =>
      if o ≠ option then none
      else if command = yes then some true
      else if command = no then some false
      else none
    | _ => none)

variable (yes no option : UInt8) (offer : Bool) {s s' : Receiver}

lemma offers_append (front back : List Token) :
    offers yes no option (front ++ back) =
      offers yes no option front ++ offers yes no option back :=
  filterMap_append

def remoteSide (protocol : TelnetProtocol) (option : UInt8) : Side :=
  { enabled := option ∈ protocol.remoteEnabled, refused := option ∈ protocol.remoteRefused }

def localSide (protocol : TelnetProtocol) (option : UInt8) : Side :=
  { enabled := option ∈ protocol.localEnabled, refused := option ∈ protocol.localRefused }

/-- The shared flags mirror the two local options they stand for. -/
def FlagsAgree (protocol : TelnetProtocol) (runtime : RuntimeState) : Prop :=
  (runtime.localBinary = true ↔ optionBinary ∈ protocol.localEnabled) ∧
  (runtime.nawsEnabled = true ↔ optionNaws ∈ protocol.localEnabled)

/-- From `s` to `s'` every side reacts to the peer's tokens, and the reply bytes
grow by exactly the sides' answers, other subnegotiations than a window size,
and the current window size when its option becomes enabled. -/
structure Reacts (s s' : Receiver) (peer : List Token) : Prop where
  flags : FlagsAgree s.protocol s.runtime → FlagsAgree s'.protocol s'.runtime
  windowSize_eq : s'.runtime.windowSize = s.runtime.windowSize
  answers : ∃ bytes out, s'.result.replies = s.result.replies ++ bytes ∧ Framed bytes out ∧
    windowSizes out =
      (if optionNaws ∉ s.protocol.localEnabled ∧ optionNaws ∈ s'.protocol.localEnabled then
        [windowSizeBytes s.runtime.windowSize]
      else []) ∧
    ∀ option,
      (remoteSide s.protocol option).run (supportsRemoteOption option)
          (offers will wont option peer) =
        (remoteSide s'.protocol option, offers do_ dont option out) ∧
      (localSide s.protocol option).run (supportsLocalOption option)
          (offers do_ dont option peer) =
        (localSide s'.protocol option, offers will wont option out)

/-- The reply commands that carry the answers of a side. -/
def answerBytes (yes no option : UInt8) (answers : List Bool) : List UInt8 :=
  answers.flatMap (fun a => [iac, if a then yes else no, option])

def answerTokens (yes no option : UInt8) (answers : List Bool) : List Token :=
  answers.map (fun a => .command (if a then yes else no) option)

lemma framed_answerBytes {yes no : UInt8} (hy : isNegotiation yes) (hn : isNegotiation no)
    (option : UInt8) (answers : List Bool) :
    Framed (answerBytes yes no option answers) (answerTokens yes no option answers) := by
  induction answers with
  | nil => exact .nil
  | cons a answers ih =>
    have head : Framed [iac, if a then yes else no, option]
        [.command (if a then yes else no) option] := by
      cases a
      · exact framed_command hn option
      · exact framed_command hy option
    exact head.append ih

lemma offers_command (command o : UInt8) :
    offers yes no option [.command command o] =
      if o ≠ option then []
      else if command = yes then [true]
      else if command = no then [false]
      else [] := by
  simp only [offers, filterMap_cons, filterMap_nil]
  split_ifs <;> rfl

lemma offers_answerTokens {yes no : UInt8} (differ : no ≠ yes) (option o : UInt8)
    (answers : List Bool) :
    offers yes no o (answerTokens yes no option answers) = if option = o then answers else [] := by
  induction answers with
  | nil => simp [answerTokens, offers]
  | cons a answers ih =>
    have split : answerTokens yes no option (a :: answers) =
        [.command (if a then yes else no) option] ++ answerTokens yes no option answers := rfl
    rw [split, offers_append, ih, offers_command]
    by_cases h : option = o <;> cases a <;> simp [h, differ]

lemma offers_other {yes no yes' no' : UInt8} (apart : ∀ a : Bool,
    (if a then yes' else no') ≠ yes ∧ (if a then yes' else no') ≠ no) (option o : UInt8)
    (answers : List Bool) : offers yes no o (answerTokens yes' no' option answers) = [] := by
  induction answers with
  | nil => rfl
  | cons a answers ih =>
    have split : answerTokens yes' no' option (a :: answers) =
        [.command (if a then yes' else no') option] ++ answerTokens yes' no' option answers := rfl
    rw [split, offers_append, ih, offers_command]
    simp [apart a]

lemma windowSizes_answerTokens (answers : List Bool) :
    windowSizes (answerTokens yes no option answers) = [] := by
  induction answers with
  | nil => rfl
  | cons a answers ih => exact ih

lemma localEnabled_iff {p p' : TelnetProtocol} (locals : ∀ o, localSide p' o = localSide p o)
    (o : UInt8) : o ∈ p'.localEnabled ↔ o ∈ p.localEnabled := by
  have same := congrArg Side.enabled (locals o)
  simpa [localSide] using same

/-- A command of the remote direction moves one remote side and nothing else. -/
lemma reacts_remote {option : UInt8} (answers : List Bool) (runtime : s'.runtime = s.runtime)
    (locals : ∀ o, localSide s'.protocol o = localSide s.protocol o)
    (others : ∀ o, o ≠ option → remoteSide s'.protocol o = remoteSide s.protocol o)
    (reacted : (remoteSide s.protocol option).react (supportsRemoteOption option) offer =
      (remoteSide s'.protocol option, answers))
    (sent : s'.result.replies = s.result.replies ++ answerBytes do_ dont option answers) :
    Reacts s s' [.command (if offer then will else wont) option] := by
  have enabled := localEnabled_iff locals
  refine ⟨?_, by rw [runtime], _, _, sent,
    framed_answerBytes (by decide) (by decide) option answers, ?_, fun o => ⟨?_, ?_⟩⟩
  · intro agree
    rw [FlagsAgree, runtime, enabled, enabled]
    exact agree
  · simp [windowSizes_answerTokens, enabled]
  · rw [offers_command, offers_answerTokens (by decide)]
    by_cases same : option = o
    · subst same
      cases offer <;> simp [← reacted, Side.run_singleton, show wont ≠ will by decide]
    · simp [same, others o (Ne.symm same), Side.run]
  · rw [offers_command, offers_other (by decide), locals]
    cases offer <;> simp [Side.run, show will ≠ do_ by decide, show will ≠ dont by decide,
      show wont ≠ do_ by decide, show wont ≠ dont by decide]

/-- A command of the local direction moves one local side, and may send a
further subnegotiation. -/
lemma reacts_local {option : UInt8} (answers : List Bool) (extra : List UInt8) (out : List Token)
    (flags : FlagsAgree s.protocol s.runtime → FlagsAgree s'.protocol s'.runtime)
    (windowSize : s'.runtime.windowSize = s.runtime.windowSize)
    (remotes : ∀ o, remoteSide s'.protocol o = remoteSide s.protocol o)
    (others : ∀ o, o ≠ option → localSide s'.protocol o = localSide s.protocol o)
    (reacted : (localSide s.protocol option).react (supportsLocalOption option) offer =
      (localSide s'.protocol option, answers))
    (sent : s'.result.replies =
      s.result.replies ++ (answerBytes will wont option answers ++ extra))
    (framed : Framed extra out) (silent : ∀ yes no o, offers yes no o out = [])
    (reported : windowSizes out =
      if optionNaws ∉ s.protocol.localEnabled ∧ optionNaws ∈ s'.protocol.localEnabled then
        [windowSizeBytes s.runtime.windowSize]
      else []) :
    Reacts s s' [.command (if offer then do_ else dont) option] := by
  refine ⟨flags, windowSize, _, _, sent,
    (framed_answerBytes (by decide) (by decide) option answers).append framed, ?_,
    fun o => ⟨?_, ?_⟩⟩
  · rw [windowSizes_append, windowSizes_answerTokens, reported]
    rfl
  · rw [offers_command, offers_append, offers_other (by decide), silent, remotes]
    cases offer <;> simp [Side.run, show do_ ≠ will by decide, show do_ ≠ wont by decide,
      show dont ≠ will by decide, show dont ≠ wont by decide]
  · rw [offers_command, offers_append, offers_answerTokens (by decide), silent]
    by_cases same : option = o
    · subst same
      cases offer <;> simp [← reacted, Side.run_singleton, show dont ≠ do_ by decide]
    · simp [same, others o (Ne.symm same), Side.run]

/-- Nothing was asked and nothing but subnegotiations is sent. -/
lemma reacts_silent {peer : List Token} {extra : List UInt8} {out : List Token}
    (runtime : s'.runtime = s.runtime)
    (remotes : ∀ o, remoteSide s'.protocol o = remoteSide s.protocol o)
    (locals : ∀ o, localSide s'.protocol o = localSide s.protocol o)
    (asked : ∀ yes no o, (yes = will ∧ no = wont) ∨ (yes = do_ ∧ no = dont) →
      offers yes no o peer = [])
    (sent : s'.result.replies = s.result.replies ++ extra) (framed : Framed extra out)
    (silent : ∀ yes no o, offers yes no o out = []) (unreported : windowSizes out = []) :
    Reacts s s' peer := by
  have enabled := localEnabled_iff locals
  refine ⟨?_, by rw [runtime], _, _, sent, framed, ?_, fun o => ⟨?_, ?_⟩⟩
  · intro agree
    rw [FlagsAgree, runtime, enabled, enabled]
    exact agree
  · simp [unreported, enabled]
  · rw [asked will wont o (.inl ⟨rfl, rfl⟩), silent, remotes]
    rfl
  · rw [asked do_ dont o (.inr ⟨rfl, rfl⟩), silent, locals]
    rfl

namespace Receiver
variable {s : Receiver}

lemma onWill_reacts (s : Receiver) (option : UInt8) :
    Reacts s (s.onWill option) [.command will option] := by
  unfold onWill
  by_cases supported : supportsRemoteOption option
  · by_cases on : option ∈ s.protocol.remoteEnabled
    · apply reacts_remote true []
      all_goals intros
      all_goals simp [*, emit, remoteSide, localSide, Side.react, answerBytes]
    · apply reacts_remote true [true]
      all_goals intros
      all_goals simp [*, emit, reply, remoteSide, localSide, Side.react, answerBytes]
  · by_cases told : option ∈ s.protocol.remoteRefused
    · apply reacts_remote true []
      all_goals intros
      all_goals simp [*, remoteSide, localSide, Side.react, answerBytes]
    · apply reacts_remote true [false]
      all_goals intros
      all_goals simp [*, emit, reply, remoteSide, localSide, Side.react, answerBytes]

lemma onWont_reacts (s : Receiver) (option : UInt8) :
    Reacts s (s.onWont option) [.command wont option] := by
  unfold onWont
  by_cases on : option ∈ s.protocol.remoteEnabled
  · apply reacts_remote false [false]
    all_goals intros
    all_goals simp [*, emit, reply, remoteSide, localSide, Side.react, Side.fresh, answerBytes]
  · apply reacts_remote false []
    all_goals intros
    all_goals simp [*, emit, remoteSide, localSide, Side.react, Side.fresh, answerBytes]

lemma onDo_reacts (s : Receiver) (option : UInt8) :
    Reacts s (s.onDo option) [.command do_ option] := by
  have notNaws : optionBinary ≠ optionNaws := by decide
  unfold onDo
  by_cases supported : supportsLocalOption option
  · by_cases on : option ∈ s.protocol.localEnabled
    · refine reacts_local true [] [] [] ?_ ?_ (fun o => ?_) (fun o other => ?_) ?_ ?_ .nil
        (fun _ _ _ => rfl) ?_
      all_goals simp [*, emit, remoteSide, localSide, Side.react, answerBytes, FlagsAgree,
        windowSizes]
    · by_cases binary : option = optionBinary
      · subst binary
        refine reacts_local true [true] [] [] ?_ ?_ (fun o => ?_) (fun o other => ?_) ?_ ?_ .nil
          (fun _ _ _ => rfl) ?_
        all_goals simp [*, emit, reply, remoteSide, localSide, Side.react, answerBytes,
          FlagsAgree, notNaws.symm, windowSizes]
      · by_cases naws : option = optionNaws
        · subst naws
          refine reacts_local true [true] (nawsPacket s.runtime.windowSize) _ ?_ ?_ (fun o => ?_)
            (fun o other => ?_) ?_ ?_ (framed_nawsPacket _) (fun _ _ _ => rfl) ?_
          · rintro ⟨agree, _⟩
            constructor
            · simp [*, emit, reply]
            · simp [*, emit, reply]
          all_goals simp [*, emit, reply, remoteSide, localSide, Side.react, answerBytes,
            windowSizes]
        · refine reacts_local true [true] [] [] ?_ ?_ (fun o => ?_) (fun o other => ?_) ?_ ?_ .nil
            (fun _ _ _ => rfl) ?_
          all_goals simp [*, emit, reply, remoteSide, localSide, Side.react, answerBytes,
            FlagsAgree, Ne.symm binary, Ne.symm naws, windowSizes]
  · by_cases told : option ∈ s.protocol.localRefused
    · refine reacts_local true [] [] [] ?_ ?_ (fun o => ?_) (fun o other => ?_) ?_ ?_ .nil
        (fun _ _ _ => rfl) ?_
      all_goals simp [*, remoteSide, localSide, Side.react, answerBytes, FlagsAgree, windowSizes]
    · refine reacts_local true [false] [] [] ?_ ?_ (fun o => ?_) (fun o other => ?_) ?_ ?_ .nil
        (fun _ _ _ => rfl) ?_
      all_goals simp [*, emit, reply, remoteSide, localSide, Side.react, answerBytes, FlagsAgree,
        windowSizes]

lemma onDont_protocol (s : Receiver) (option : UInt8) :
    (s.onDont option).protocol = { s.protocol with
      localEnabled := s.protocol.localEnabled.erase option
      localRefused := s.protocol.localRefused.erase option } := by
  unfold onDont
  split_ifs <;> simp only [emit] <;> split_ifs <;> rfl

lemma onDont_replies (s : Receiver) (option : UInt8) :
    (s.onDont option).result.replies = s.result.replies ++
      if option ∈ s.protocol.localEnabled then [iac, wont, option] else [] := by
  by_cases on : option ∈ s.protocol.localEnabled
  all_goals
    unfold onDont
    simp only [on, decide_true, decide_false, if_true, if_false, Bool.false_eq_true]
    split_ifs <;> simp [emit, reply]

lemma onDont_runtime (s : Receiver) (option : UInt8) :
    (s.onDont option).runtime = { s.runtime with
      localBinary := if option = optionBinary then false else s.runtime.localBinary
      nawsEnabled := if option = optionNaws then false else s.runtime.nawsEnabled } := by
  have notNaws : optionBinary ≠ optionNaws := by decide
  by_cases on : option ∈ s.protocol.localEnabled
  all_goals
    unfold onDont
    simp only [on, decide_true, decide_false, if_true, if_false, Bool.false_eq_true]
    split_ifs <;> simp_all [emit, reply]

lemma onDont_reacts (s : Receiver) (option : UInt8) :
    Reacts s (s.onDont option) [.command dont option] := by
  have reacted : (localSide s.protocol option).react (supportsLocalOption option) false =
      (localSide (s.onDont option).protocol option,
        if option ∈ s.protocol.localEnabled then [false] else []) := by
    simp [onDont_protocol, localSide, Side.react, Side.fresh]
  refine reacts_local false _ [] [] ?_ ?_ (fun o => ?_) (fun o other => ?_)
    reacted ?_ .nil (fun _ _ _ => rfl) ?_
  · rintro ⟨binary, naws⟩
    rw [FlagsAgree, onDont_protocol, onDont_runtime]
    constructor
    · by_cases same : option = optionBinary
      · simp [same]
      · simp [same, Ne.symm same, binary]
    · by_cases same : option = optionNaws
      · simp [same]
      · simp [same, Ne.symm same, naws]
  · rw [onDont_runtime]
  · simp [onDont_protocol, remoteSide]
  · simp [onDont_protocol, localSide, other]
  · rw [onDont_replies]
    split_ifs <;> simp [answerBytes]
  · have stays : ¬ (optionNaws ∉ s.protocol.localEnabled ∧
        optionNaws ∈ (s.onDont option).protocol.localEnabled) := by
      rintro ⟨off, on⟩
      rw [onDont_protocol] at on
      exact off (Finset.mem_of_mem_erase on)
    rw [if_neg stays]
    rfl

lemma handleNegotiation_reacts (s : Receiver) (command option : UInt8) :
    Reacts s (s.handleNegotiation command option) [.command command option] := by
  unfold handleNegotiation
  by_cases hWill : command = will
  · subst hWill
    rw [if_pos rfl]
    exact onWill_reacts s option
  by_cases hWont : command = wont
  · subst hWont
    rw [if_neg hWill, if_pos rfl]
    exact onWont_reacts s option
  by_cases hDo : command = do_
  · subst hDo
    rw [if_neg hWill, if_neg hWont, if_pos rfl]
    exact onDo_reacts s option
  by_cases hDont : command = dont
  · subst hDont
    rw [if_neg hWill, if_neg hWont, if_neg hDo, if_pos rfl]
    exact onDont_reacts s option
  rw [if_neg hWill, if_neg hWont, if_neg hDo, if_neg hDont]
  refine reacts_silent rfl (fun _ => rfl) (fun _ => rfl) ?_ (append_nil _).symm .nil
    (fun _ _ _ => rfl) rfl
  rintro yes no o (⟨rfl, rfl⟩ | ⟨rfl, rfl⟩) <;> simp [offers_command, hWill, hWont, hDo, hDont]

/-- The reading of the received bytes that the protocol machine carries. -/
def decoder (s : Receiver) : Decoder :=
  { state := s.protocol.state
    option := s.protocol.subnegotiationOption
    payload := s.protocol.subnegotiationData }

lemma handleNegotiation_decoder (s : Receiver) (command option : UInt8) :
    (s.handleNegotiation command option).decoder = s.decoder := by
  unfold handleNegotiation
  split_ifs
  · unfold onWill
    simp only []
    split_ifs <;> rfl
  · unfold onWont
    simp only []
    split_ifs <;> rfl
  · unfold onDo
    simp only []
    split_ifs <;> rfl
  · rw [decoder, onDont_protocol]
    rfl
  · rfl

/-- Reading and answering without a command among the tokens. -/
lemma reacts_of_quiet {s s' : Receiver} {peer : List Token} {extra : List UInt8}
    {out : List Token} (runtime : s'.runtime = s.runtime)
    (remotes : ∀ o, remoteSide s'.protocol o = remoteSide s.protocol o)
    (locals : ∀ o, localSide s'.protocol o = localSide s.protocol o)
    (asked : ∀ yes no o, offers yes no o peer = [])
    (sent : s'.result.replies = s.result.replies ++ extra) (framed : Framed extra out)
    (silent : ∀ yes no o, offers yes no o out = []) (unreported : windowSizes out = []) :
    Reacts s s' peer :=
  reacts_silent runtime remotes locals (fun yes no o _ => asked yes no o) sent framed silent
    unreported

lemma handleSubnegotiation_spec (s : Receiver) :
    s.handleSubnegotiation.runtime = s.runtime ∧
      (∀ o, remoteSide s.handleSubnegotiation.protocol o = remoteSide s.protocol o) ∧
      (∀ o, localSide s.handleSubnegotiation.protocol o = localSide s.protocol o) ∧
      ∃ extra out, s.handleSubnegotiation.result.replies = s.result.replies ++ extra ∧
        Framed extra out ∧ (∀ yes no o, offers yes no o out = []) ∧ windowSizes out = [] := by
  have nothing : ∃ extra out, s.result.replies = s.result.replies ++ extra ∧
      Framed extra out ∧ (∀ yes no o, offers yes no o out = []) ∧ windowSizes out = [] :=
    ⟨[], [], (append_nil _).symm, .nil, fun _ _ _ => rfl, rfl⟩
  unfold handleSubnegotiation
  split
  · exact ⟨rfl, fun _ => rfl, fun _ => rfl, nothing⟩
  · split
    · exact ⟨rfl, fun _ => rfl, fun _ => rfl, _, _, rfl, framed_terminalTypePacket _,
        fun _ _ _ => rfl, rfl⟩
    · exact ⟨rfl, fun _ => rfl, fun _ => rfl, nothing⟩

/-- One byte: the machine reads it as the wire does, and reacts to what it completes. -/
lemma receiveByte_reacts (s : Receiver) (byte : UInt8) :
    (s.receiveByte byte).decoder = (s.decoder.next byte).1 ∧
      Reacts s (s.receiveByte byte) (s.decoder.next byte).2 := by
  have reading : ∀ {s' : Receiver} {peer : List Token}, s'.runtime = s.runtime →
      (∀ o, remoteSide s'.protocol o = remoteSide s.protocol o) →
      (∀ o, localSide s'.protocol o = localSide s.protocol o) →
      (∀ yes no o, offers yes no o peer = []) →
      s'.result.replies = s.result.replies → Reacts s s' peer :=
    fun runtime remotes locals asked sent => reacts_of_quiet runtime remotes locals asked
      (sent.trans (append_nil _).symm) .nil (fun _ _ _ => rfl) rfl
  unfold receiveByte Decoder.next
  have state : s.decoder.state = s.protocol.state := rfl
  rw [state]
  cases hs : s.protocol.state with
  | data =>
    simp only []
    split
    · exact ⟨rfl, reading rfl (fun _ => rfl) (fun _ => rfl) (fun _ _ _ => rfl) rfl⟩
    · exact ⟨rfl, reading rfl (fun _ => rfl) (fun _ => rfl) (fun _ _ _ => rfl) rfl⟩
  | command =>
    simp only []
    split_ifs
    all_goals exact ⟨rfl, reading rfl (fun _ => rfl) (fun _ => rfl) (fun _ _ _ => rfl) rfl⟩
  | option command =>
    obtain ⟨flags, size, answers⟩ := handleNegotiation_reacts s command byte
    refine ⟨?_, flags, size, answers⟩
    have kept := handleNegotiation_decoder s command byte
    exact congrArg (fun d : Decoder => { d with state := .data }) kept
  | subnegotiationOption =>
    exact ⟨rfl, reading rfl (fun _ => rfl) (fun _ => rfl) (fun _ _ _ => rfl) rfl⟩
  | subnegotiation =>
    simp only []
    split
    · exact ⟨rfl, reading rfl (fun _ => rfl) (fun _ => rfl) (fun _ _ _ => rfl) rfl⟩
    · exact ⟨by simp [decoder, hs],
        reading rfl (fun _ => rfl) (fun _ => rfl) (fun _ _ _ => rfl) rfl⟩
  | subnegotiationCommand =>
    simp only []
    split_ifs
    · exact ⟨rfl, reading rfl (fun _ => rfl) (fun _ => rfl) (fun _ _ _ => rfl) rfl⟩
    · obtain ⟨runtime, remotes, locals, extra, out, sent, framed, silent, unreported⟩ :=
        handleSubnegotiation_spec s
      refine ⟨rfl, reacts_of_quiet runtime remotes locals (fun yes no o => ?_) sent framed silent
        unreported⟩
      cases s.decoder.option <;> rfl
    · exact ⟨rfl, reading rfl (fun _ => rfl) (fun _ => rfl) (fun _ _ _ => rfl) rfl⟩

end Receiver

/-- The terminal's side of the connection: the protocol machine, the state it
shares with the session, and all reply bytes so far. -/
structure Endpoint where
  protocol : TelnetProtocol
  runtime : RuntimeState
  replies : List UInt8

def Endpoint.new (size : WindowSize) : Endpoint :=
  { protocol := .new, runtime := .new size, replies := [] }

/-- A call on the endpoint; a resize stores the new size. -/
inductive Call where
  | receive (chunk : List UInt8)
  | resize (size : WindowSize)

def Endpoint.apply (e : Endpoint) : Call → Endpoint
  | .receive chunk =>
    let r := receive e.protocol chunk e.runtime
    { protocol := r.protocol, runtime := r.runtime, replies := e.replies ++ r.result.replies }
  | .resize size => { e with runtime := { e.runtime with windowSize := size } }

def runCalls (e : Endpoint) (calls : List Call) : Endpoint :=
  calls.foldl Endpoint.apply e

/-- The bytes received by some calls. -/
def received (calls : List Call) : List UInt8 :=
  calls.flatMap (fun call =>
    match call with
    | .receive chunk => chunk
    | .resize _ => [])

/-- After the bytes `history` the machine has read them as the wire does, and
every side has reacted to the offers among them; `front` was sent before. -/
structure Linked (s : Receiver) (front history : List UInt8) : Prop where
  reading : s.decoder = (decode .fresh history).1
  framed : Framed (front ++ s.result.replies) (tokens (front ++ s.result.replies))
  flags : FlagsAgree s.protocol s.runtime
  sides : ∀ option,
    Side.fresh.run (supportsRemoteOption option) (offers will wont option (tokens history)) =
      (remoteSide s.protocol option,
        offers do_ dont option (tokens (front ++ s.result.replies))) ∧
    Side.fresh.run (supportsLocalOption option) (offers do_ dont option (tokens history)) =
      (localSide s.protocol option,
        offers will wont option (tokens (front ++ s.result.replies)))

lemma tokens_push (history : List UInt8) (byte : UInt8) :
    tokens (history ++ [byte]) =
      tokens history ++ ((decode .fresh history).1.next byte).2 := by
  simp [tokens, decode_append, decode]

variable (size : WindowSize) (calls : List Call) (o : UInt8) {history : List UInt8} {s : Receiver}
  {front : List UInt8} {e : Endpoint} {no option : UInt8}

lemma Linked.byte (h : Linked s front history) (byte : UInt8) :
    Linked (s.receiveByte byte) front (history ++ [byte]) := by
  obtain ⟨read, flags, _, bytes, out, sent, framed, _, sides⟩ :=
    Receiver.receiveByte_reacts s byte
  have whole : Framed (front ++ (s.receiveByte byte).result.replies)
      (tokens (front ++ s.result.replies) ++ out) := by
    rw [sent, ← append_assoc]
    exact h.framed.append framed
  refine ⟨?_, ?_, flags h.flags, fun option => ?_⟩
  · rw [read, h.reading, decode_append]
    rfl
  · rw [whole.tokens_eq]
    exact whole
  · obtain ⟨remote, loc⟩ := h.sides option
    obtain ⟨remote', loc'⟩ := sides option
    rw [whole.tokens_eq, tokens_push, ← h.reading, offers_append, offers_append, offers_append,
      offers_append, Side.run_append, Side.run_append, remote, loc, remote', loc']
    exact ⟨rfl, rfl⟩

lemma Linked.chunk (h : Linked s front history) (chunk : List UInt8) :
    Linked (chunk.foldl Receiver.receiveByte s) front (history ++ chunk) := by
  induction chunk generalizing s history with
  | nil =>
    rw [append_nil]
    exact h
  | cons byte chunk ih =>
    have next := ih (h.byte byte)
    rw [append_assoc] at next
    exact next

/-- The next call of `receive` starts with an empty result. -/
def Endpoint.receiver (e : Endpoint) : Receiver :=
  { protocol := e.protocol, runtime := e.runtime
    result := { data := [], replies := [], events := [] } }

lemma Linked.apply (h : Linked e.receiver e.replies history) (call : Call) :
    Linked (e.apply call).receiver (e.apply call).replies (history ++ received [call]) := by
  cases call with
  | receive chunk =>
    obtain ⟨reading, framed, flags, sides⟩ := h.chunk chunk
    have bytes : history ++ received [.receive chunk] = history ++ chunk := by simp [received]
    rw [bytes]
    refine ⟨reading, ?_, flags, ?_⟩
    · simpa [Endpoint.apply, Endpoint.receiver, receive] using framed
    · simpa [Endpoint.apply, Endpoint.receiver, receive] using sides
  | resize size =>
    have bytes : history ++ received [.resize size] = history := by simp [received]
    rw [bytes]
    exact ⟨h.reading, h.framed, h.flags, h.sides⟩

lemma Linked.new : Linked (Endpoint.new size).receiver (Endpoint.new size).replies [] := by
  refine ⟨rfl, rfl, ?_, fun option => ⟨?_, ?_⟩⟩
  · simp [FlagsAgree, Endpoint.new, Endpoint.receiver, RuntimeState.new, TelnetProtocol.new]
  · simp [Endpoint.new, Endpoint.receiver, TelnetProtocol.new, remoteSide, tokens, decode, offers,
      Side.run, Side.fresh]
  · simp [Endpoint.new, Endpoint.receiver, TelnetProtocol.new, localSide, tokens, decode, offers,
      Side.run, Side.fresh]

lemma runCalls_linked (h : Linked e.receiver e.replies history) (calls : List Call) :
    Linked (runCalls e calls).receiver (runCalls e calls).replies (history ++ received calls) := by
  induction calls generalizing e history with
  | nil =>
    rw [show received [] = [] from rfl, append_nil]
    exact h
  | cons call calls ih =>
    have next := ih (h.apply call)
    have bytes : received (call :: calls) = received [call] ++ received calls := by
      simp [received]
    rw [bytes, ← append_assoc]
    exact next

/-- What the peer was told about a remote option: `DO` is `true`, `DONT` is `false`. -/
def remoteAnswers (e : Endpoint) (option : UInt8) : List Bool :=
  offers do_ dont option (tokens e.replies)

/-- What the peer was told about a local option: `WILL` is `true`, `WONT` is `false`. -/
def localAnswers (e : Endpoint) (option : UInt8) : List Bool :=
  offers will wont option (tokens e.replies)

/-- How often the peer sent the command for the option. -/
def commandCount (command option : UInt8) (calls : List Call) : Nat :=
  (tokens (received calls)).count (.command command option)

/-- The remote sides after a run are the sides run on what the peer sent. -/
lemma remote_run :
    Side.fresh.run (supportsRemoteOption o) (offers will wont o (tokens (received calls))) =
      (remoteSide (runCalls (.new size) calls).protocol o,
        remoteAnswers (runCalls (.new size) calls) o) := by
  have h := ((runCalls_linked (.new size) calls).sides o).1
  simpa [Endpoint.receiver, remoteAnswers] using h

lemma local_run :
    Side.fresh.run (supportsLocalOption o) (offers do_ dont o (tokens (received calls))) =
      (localSide (runCalls (.new size) calls).protocol o,
        localAnswers (runCalls (.new size) calls) o) := by
  have h := ((runCalls_linked (.new size) calls).sides o).2
  simpa [Endpoint.receiver, localAnswers] using h

lemma mem_of_withdrawn {yes : UInt8} {stream : List Token}
    (h : false ∈ offers yes no option stream) : .command no option ∈ stream := by
  obtain ⟨token, htoken, read⟩ := mem_filterMap.mp h
  cases token with
  | data | subnegotiation => cases read
  | command command o =>
    simp only [] at read
    split_ifs at read with other isYes isNo
    · cases read
    · rw [← isNo, ← not_ne_iff.mp other]
      exact htoken

/-- Between two withdrawals by the peer an unsupported option is refused at most once. -/
lemma refused_once {supported : Bool} (unsupported : ¬ supported = true) (yes : UInt8)
    {earlier calls : List Call} (prefixed : received earlier <+: received calls)
    (still : commandCount no option earlier = commandCount no option calls) :
    (Side.fresh.run supported (offers yes no option (tokens (received calls)))).2.length ≤
      (Side.fresh.run supported (offers yes no option (tokens (received earlier)))).2.length + 1 := by
  obtain rfl := Bool.eq_false_iff.mpr unsupported
  obtain ⟨more, bytes⟩ := prefixed
  have split : tokens (received calls) =
      tokens (received earlier) ++ (decode (decode .fresh (received earlier)).1 more).2 := by
    rw [← bytes, tokens, decode_append]
    rfl
  have quiet : false ∉ offers yes no option
      (decode (decode .fresh (received earlier)).1 more).2 := by
    intro withdrawn
    have sent := count_pos_iff.mpr (mem_of_withdrawn withdrawn)
    rw [commandCount, commandCount, split, count_append] at still
    omega
  have off := (Side.run_unsupported (s := .fresh) rfl
    (offers yes no option (tokens (received earlier)))).1
  have once := Side.run_refuses_once off quiet
  rw [split, offers_append, Side.run_append, length_append]
  omega

/-- At every point of every run: only supported options are enabled, none of them
is refused, the shared flags mirror the local options, and the replies sent so
far obey the history law. A point inside a call of `receive` is the end of the
run whose last chunk is cut there. -/
theorem option_negotiation (size : WindowSize) (calls : List Call) :
    let e := runCalls (.new size) calls
    (∀ o ∈ e.protocol.remoteEnabled, supportsRemoteOption o) ∧
    (∀ o ∈ e.protocol.localEnabled, supportsLocalOption o) ∧
    (∀ o ∈ e.protocol.remoteRefused, ¬ supportsRemoteOption o) ∧
    (∀ o ∈ e.protocol.localRefused, ¬ supportsLocalOption o) ∧
    (e.runtime.localBinary = true ↔ optionBinary ∈ e.protocol.localEnabled) ∧
    (e.runtime.nawsEnabled = true ↔ optionNaws ∈ e.protocol.localEnabled) ∧
    (∀ o, supportsRemoteOption o →
      (remoteAnswers e o).IsChain (· ≠ ·) ∧ (remoteAnswers e o).head? ≠ some false ∧
      (o ∈ e.protocol.remoteEnabled ↔ (remoteAnswers e o).getLast? = some true)) ∧
    (∀ o, supportsLocalOption o →
      (localAnswers e o).IsChain (· ≠ ·) ∧ (localAnswers e o).head? ≠ some false ∧
      (o ∈ e.protocol.localEnabled ↔ (localAnswers e o).getLast? = some true)) ∧
    (∀ o, ¬ supportsRemoteOption o → (∀ a ∈ remoteAnswers e o, a = false) ∧
      ∀ earlier, received earlier <+: received calls →
        commandCount wont o earlier = commandCount wont o calls →
        (remoteAnswers e o).length ≤
          (remoteAnswers (runCalls (.new size) earlier) o).length + 1) ∧
    (∀ o, ¬ supportsLocalOption o → (∀ a ∈ localAnswers e o, a = false) ∧
      ∀ earlier, received earlier <+: received calls →
        commandCount dont o earlier = commandCount dont o calls →
        (localAnswers e o).length ≤
          (localAnswers (runCalls (.new size) earlier) o).length + 1) := by
  have flags := (runCalls_linked (.new size) calls).flags
  have remote : ∀ o, Side.Lawful (supportsRemoteOption o)
      (remoteSide (runCalls (.new size) calls).protocol o)
      (remoteAnswers (runCalls (.new size) calls) o) := by
    intro o
    have law := Side.run_lawful (supportsRemoteOption o)
      (offers will wont o (tokens (received calls)))
    rwa [remote_run size calls o] at law
  have loc : ∀ o, Side.Lawful (supportsLocalOption o)
      (localSide (runCalls (.new size) calls).protocol o)
      (localAnswers (runCalls (.new size) calls) o) := by
    intro o
    have law := Side.run_lawful (supportsLocalOption o)
      (offers do_ dont o (tokens (received calls)))
    rwa [local_run size calls o] at law
  refine ⟨fun o on => ?_, fun o on => ?_, fun o told => ?_, fun o told => ?_, flags.1, flags.2,
    fun o supported => ?_, fun o supported => ?_, fun o unsupported => ?_, fun o unsupported => ?_⟩
  · exact (remote o).enabled (decide_eq_true on)
  · exact (loc o).enabled (decide_eq_true on)
  · exact (remote o).refused (decide_eq_true told)
  · exact (loc o).refused (decide_eq_true told)
  · simpa [remoteSide] using (remote o).alternating supported
  · simpa [localSide] using (loc o).alternating supported
  · refine ⟨(remote o).refusing unsupported, fun earlier prefixed still => ?_⟩
    have once := refused_once unsupported will prefixed still
    rwa [remote_run size calls o, remote_run size earlier o] at once
  · refine ⟨(loc o).refusing unsupported, fun earlier prefixed still => ?_⟩
    have once := refused_once unsupported do_ prefixed still
    rwa [local_run size calls o, local_run size earlier o] at once

end Telnet
