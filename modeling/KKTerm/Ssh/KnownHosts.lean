import KKTerm.Library.Runs
import KKTerm.Library.Text

/-!
# Trusted host keys

The trusted keys are the lines of one file. Every connection that confirms a key checks the file,
and appends a line or first removes those that conflict with the key. Other connections do the
same at the same time: only a read, an append and a write of the whole file are one step.
-/

namespace Ssh.KnownHosts

structure Endpoint where
  host : List Char
  port : UInt16
  deriving DecidableEq

structure PublicKey where
  algorithm : List Char
  data : List Char
  deriving DecidableEq

structure Line where
  endpoint : Endpoint
  key : PublicKey
  deriving DecidableEq

structure KeyFormat where
  fromOpenssh : List Char → Except (List Char) PublicKey
  toOpenssh : PublicKey → Except (List Char) (List Char)
  /-- A key that was read can be written. -/
  toOpenssh_ok : ∀ key, ∃ text, toOpenssh key = .ok text
  fingerprint : PublicKey → List Char

inductive HostKeyTrustStatus where
  | trusted
  | unknown
  | changed (line : Nat)
  deriving DecidableEq

/-- Another key of the same algorithm for the same host. -/
def conflicts (endpoint : Endpoint) (key : PublicKey) (line : Line) : Bool :=
  line.endpoint = endpoint && line.key.algorithm = key.algorithm && line.key ≠ key

/-- Lines are counted from 1. -/
def hostKeyStatus (file : List Line) (endpoint : Endpoint) (key : PublicKey) :
    HostKeyTrustStatus :=
  if ⟨endpoint, key⟩ ∈ file then .trusted
  else
    match file.findIdx? (conflicts endpoint key) with
    | some i => .changed (i + 1)
    | none => .unknown

def learn (file : List Line) (endpoint : Endpoint) (key : PublicKey) : List Line :=
  file ++ [⟨endpoint, key⟩]

structure TrustSshHostKeyRequest where
  host : List Char
  port : Option UInt16
  publicKey : List Char
  replace : Bool

structure SshHostKeyPreview where
  host : List Char
  port : UInt16
  algorithm : List Char
  fingerprint : List Char
  publicKey : List Char
  status : List Char

def requiredHost (host : List Char) : Except (List Char) (List Char) :=
  if Text.trim host = [] then .error "host is required for SSH host-key verification".toList
  else .ok (Text.trim host)

inductive Phase where
  /-- Before the check of `trust_host_key`. -/
  | checking
  /-- Before the check of `replace_changed_host_key`. -/
  | replacing
  /-- Before the file is read to remove a line. -/
  | removing (line : Nat)
  /-- Before the file is written without the line. -/
  | writing (lines : List Line)
  | learning
  | returned (result : Except (List Char) SshHostKeyPreview)

structure Call where
  endpoint : Endpoint
  key : PublicKey
  replace : Bool
  phase : Phase
  /-- A line was removed for the call. -/
  removed : Bool

section Calls
variable (format : KeyFormat)

def newCall (request : TrustSshHostKeyRequest) : Except (List Char) Call := do
  let host ← requiredHost request.host
  let key ← (format.fromOpenssh request.publicKey).mapError
    (fun error => "failed to parse SSH host key: ".toList ++ error)
  .ok ⟨⟨host, request.port.getD 22⟩, key, request.replace, .checking, false⟩

def preview (endpoint : Endpoint) (key : PublicKey) : Except (List Char) SshHostKeyPreview := do
  let publicKey ← (format.toOpenssh key).mapError
    (fun error => "failed to encode SSH host key: ".toList ++ error)
  .ok ⟨endpoint.host, endpoint.port, key.algorithm, format.fingerprint key, publicKey,
    "trusted".toList⟩

def Call.finish (call : Call) : Call :=
  { call with phase := .returned (preview format call.endpoint call.key) }

def Call.refuse (call : Call) (message : List Char) : Call :=
  { call with phase := .returned (.error message) }

/-- What `trust_host_key` does with the status. -/
def Call.check (call : Call) : HostKeyTrustStatus → Call
  | .trusted => call.finish format
  | .unknown => { call with phase := .learning }
  | .changed line =>
    if call.replace then { call with phase := .replacing }
    else call.refuse ("refusing to replace changed SSH host key at known-hosts line ".toList ++
      Nat.toDigits 10 line)

/-- Conflicting lines are removed one by one, and then the key is learned. -/
def Call.checkAgain (call : Call) : HostKeyTrustStatus → Call
  | .changed line => { call with phase := .removing line }
  | _ => { call with phase := .learning }

def Call.readWithout (call : Call) (line : Nat) (lines : List Line) : Call :=
  if line = 0 ∨ lines.length < line then
    call.refuse ("SSH known-hosts line ".toList ++ Nat.toDigits 10 line ++
      " is out of range".toList)
  else { call with phase := .writing (lines.eraseIdx (line - 1)) }

/-- The next step of a call: it reads the file, appends to it or writes it. -/
def Call.next (call : Call) (file : List Line) : Option (Call × List Line) :=
  match call.phase with
  | .checking => some (call.check format (hostKeyStatus file call.endpoint call.key), file)
  | .replacing => some (call.checkAgain (hostKeyStatus file call.endpoint call.key), file)
  | .removing line => some (call.readWithout line file, file)
  | .writing lines => some ({ call with phase := .replacing, removed := true }, lines)
  | .learning => some (call.finish format, learn file call.endpoint call.key)
  | .returned _ => none

/-- What a call that cannot read or write the file reports. -/
def Call.errorContext (call : Call) : Option (List Char) :=
  match call.phase with
  | .checking => some "failed to check SSH known hosts: ".toList
  | .replacing => some "failed to check SSH known hosts: ".toList
  | .removing _ => some "failed to read SSH known hosts: ".toList
  | .writing _ => some "failed to update SSH known hosts: ".toList
  | .learning => some "failed to trust SSH host key: ".toList
  | .returned _ => none

/-- The file, the calls, and the calls that succeeded in the order in which they did. -/
structure State where
  file : List Line
  calls : List Call
  succeeded : List Nat

def initial (file : List Line) : State :=
  ⟨file, [], []⟩

inductive Event where
  | trust (request : TrustSshHostKeyRequest)
  | advance (i : Nat)
  | fail (i : Nat) (error : List Char)

def Call.isTrusted (call : Call) : Bool :=
  match call.phase with
  | .returned (.ok _) => true
  | _ => false

def Call.isReturned (call : Call) : Bool :=
  match call.phase with
  | .returned _ => true
  | _ => false

def State.update (s : State) (i : Nat) (call : Call) (file : List Line) : State where
  file := file
  calls := s.calls.set i call
  succeeded := if call.isTrusted then s.succeeded ++ [i] else s.succeeded

/-- A call with an invalid request has no step on the file. -/
def step (s : State) : Event → Option State
  | .trust request =>
    match newCall format request with
    | .ok call => some { s with calls := s.calls ++ [call] }
    | .error _ => some s
  | .advance i => do
    let call ← s.calls[i]?
    let (call, file) ← call.next format s.file
    some (s.update i call file)
  | .fail i error => do
    let call ← s.calls[i]?
    let context ← call.errorContext
    some (s.update i (call.refuse (context ++ error)) s.file)

end Calls

end Ssh.KnownHosts
