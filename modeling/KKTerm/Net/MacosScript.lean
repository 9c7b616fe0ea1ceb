import KKTerm.Library.ShellWords
import KKTerm.Net.ProfileScript

/-!
# The elevated script of macOS

The same request becomes a chain of `networksetup` calls. Their arguments are quoted for the
shell, and the chain is quoted again as a text of AppleScript, which runs it with
administrator rights. Reading the two layers gives back the arguments.
-/

namespace Net

open Fallible List

def networksetup : List Char :=
  "/usr/sbin/networksetup".toList

/-- A valid prefix of IPv4 has at most 32 bits. -/
def ipv4PrefixToMask (prefixLength : UInt8) : List Char :=
  let mask : UInt32 := if prefixLength = 0 then 0 else 0xffffffff <<< (32 - prefixLength).toUInt32
  ['.'].intercalate ([24, 16, 8, 0].map fun shift : UInt32 =>
    Nat.toDigits 10 ((mask >>> shift) &&& 0xff).toNat)

/-- The arguments of a family; without an address to set the code panics. -/
def macosFamilyArgs (service : List Char) (family : NetworkFamilySnapshot) (ipv6 : Bool) :
    Option (List (List Char)) :=
  match ipv6, family.mode with
  | false, .automatic => some [networksetup, "-setdhcp".toList, service]
  | false, .disabled => some [networksetup, "-setv4off".toList, service]
  | false, .manual =>
    family.addresses.head?.map fun address =>
      [networksetup, "-setmanual".toList, service, address.address,
        ipv4PrefixToMask address.prefixLength, family.gateway.getD "0.0.0.0".toList]
  | true, .automatic => some [networksetup, "-setv6automatic".toList, service]
  | true, .disabled => some [networksetup, "-setv6off".toList, service]
  | true, .manual =>
    family.addresses.head?.map fun address =>
      [networksetup, "-setv6manual".toList, service, address.address,
        Nat.toDigits 10 address.prefixLength.toNat, family.gateway.getD "::".toList]

def escapeApostrophe (c : Char) : List Char :=
  if c = '\'' then "'\\''".toList else [c]

def shellJoin (args : List (List Char)) : List Char :=
  [' '].intercalate (args.map fun value => '\'' :: value.flatMap escapeApostrophe ++ ['\''])

def macosFamilyCommand (service : List Char) (family : NetworkFamilySnapshot) (ipv6 : Bool) :
    Option (List Char) :=
  (macosFamilyArgs service family ipv6).map shellJoin

def macosService (request : ApplyNetworkProfileRequest) : List Char :=
  request.serviceId.getD request.adapterId

def macosEnableArgs (request : ApplyNetworkProfileRequest) : List (List Char) :=
  [networksetup, "-setnetworkserviceenabled".toList, macosService request, "on".toList]

def macosDnsArgs (request : ApplyNetworkProfileRequest) : List (List Char) :=
  networksetup :: "-setdnsservers".toList :: macosService request ::
    (if request.dnsServers.isEmpty then ["empty".toList] else request.dnsServers)

def macosShellScript (request : ApplyNetworkProfileRequest) : Option (List Char) := do
  let ipv4 ← macosFamilyCommand (macosService request) request.ipv4 false
  let ipv6 ← macosFamilyCommand (macosService request) request.ipv6 true
  return " && ".toList.intercalate
    [shellJoin (macosEnableArgs request), ipv4, ipv6, shellJoin (macosDnsArgs request)]

def escapeBackslash (c : Char) : List Char :=
  if c = '\\' then ['\\', '\\'] else [c]

def escapeQuote (c : Char) : List Char :=
  if c = '"' then ['\\', '"'] else [c]

def scriptOpening : List Char :=
  "do shell script \"".toList

def scriptClosing : List Char :=
  " with administrator privileges".toList

/-- What is passed to `osascript`. -/
def macosAppleScript (request : ApplyNetworkProfileRequest) : Option (List Char) := do
  let shellScript ← macosShellScript request
  return scriptOpening ++ (shellScript.flatMap escapeBackslash).flatMap escapeQuote ++
    '"' :: scriptClosing

/-- The characters that AppleScript writes behind a backslash. -/
def escapedChar (c : Char) : Option Char :=
  if c = '\\' ∨ c = '"' then some c
  else if c = 'n' then some '\n'
  else if c = 'r' then some '\r'
  else if c = 't' then some '\t'
  else none

/-- A text of AppleScript behind its opening quote, and what follows its closing quote. -/
def readAppleScriptText : List Char → Option (List Char × List Char)
  | [] => none
  | '"' :: rest => some ([], rest)
  | '\\' :: rest =>
    match rest with
    | [] => none
    | c :: rest =>
      (escapedChar c).bind fun c => (readAppleScriptText rest).map fun (text, rest) =>
        (c :: text, rest)
  | c :: rest => (readAppleScriptText rest).map fun (text, rest) => (c :: text, rest)

/-- The shell script that an AppleScript of this form runs. -/
def readShellScript (appleScript : List Char) : Option (List Char) :=
  if scriptOpening.isPrefixOf appleScript then
    (readAppleScriptText (appleScript.drop scriptOpening.length)).bind fun (text, rest) =>
      if rest = scriptClosing then some text else none
  else none

lemma shellJoin_eq : shellJoin = ShellWords.join :=
  rfl

variable (text : List Char) {family : NetworkFamilySnapshot}

lemma readAppleScriptText_escape (rest : List Char) :
    readAppleScriptText ((text.flatMap escapeBackslash).flatMap escapeQuote ++ '"' :: rest) =
      some (text, rest) := by
  induction text with
  | nil => rfl
  | cons c text ih =>
    rw [flatMap_cons, flatMap_append, append_assoc]
    by_cases backslash : c = '\\'
    · subst backslash
      exact congrArg (Option.map fun (text, rest) => ('\\' :: text, rest)) ih
    · rw [escapeBackslash, if_neg backslash, flatMap_singleton]
      by_cases quote : c = '"'
      · subst quote
        exact congrArg (Option.map fun (text, rest) => ('"' :: text, rest)) ih
      · rw [escapeQuote, if_neg quote, singleton_append,
          readAppleScriptText.eq_5 c _ quote backslash, ih]
        rfl

lemma readShellScript_escape :
    readShellScript (scriptOpening ++ (text.flatMap escapeBackslash).flatMap escapeQuote ++
      '"' :: scriptClosing) = some text := by
  have opened : scriptOpening.isPrefixOf (scriptOpening ++
      ((text.flatMap escapeBackslash).flatMap escapeQuote ++ '"' :: scriptClosing)) = true :=
    isPrefixOf_iff_prefix.mpr (prefix_append _ _)
  rw [append_assoc, readShellScript, if_pos opened, drop_left,
    readAppleScriptText_escape, Option.bind_some]
  exact if_pos rfl

lemma addresses_ne_nil {ipv6 : Bool} (valid : validateFamily family ipv6 = .ok ())
    (manual : family.mode = .manual) : family.addresses ≠ [] := by
  obtain ⟨-, rest⟩ := reject_bind_ok.mp valid
  obtain ⟨some_, -⟩ := reject_bind_ok.mp rest
  exact fun none_ => some_ ⟨manual, none_⟩

/-- The code does not panic at a valid family. -/
lemma macosFamilyArgs_isSome (service : List Char) {ipv6 : Bool}
    (valid : validateFamily family ipv6 = .ok ()) :
    ∃ args, macosFamilyArgs service family ipv6 = some args ∧ args ≠ [] := by
  cases mode : family.mode with
  | automatic =>
    rw [macosFamilyArgs.eq_def, mode]
    cases ipv6 <;> exact ⟨_, rfl, cons_ne_nil _ _⟩
  | disabled =>
    rw [macosFamilyArgs.eq_def, mode]
    cases ipv6 <;> exact ⟨_, rfl, cons_ne_nil _ _⟩
  | manual =>
    obtain ⟨address, rest, addresses⟩ := exists_cons_of_ne_nil (addresses_ne_nil valid mode)
    rw [macosFamilyArgs.eq_def, mode, addresses]
    cases ipv6 <;> exact ⟨_, rfl, cons_ne_nil _ _⟩

lemma validate_families {request : ApplyNetworkProfileRequest}
    (valid : validateRequest request = .ok ()) :
    validateFamily request.ipv4 false = .ok () ∧ validateFamily request.ipv6 true = .ok () := by
  obtain ⟨_, -, rest⟩ := bind_eq_ok.mp valid
  obtain ⟨_, -, rest⟩ := bind_eq_ok.mp rest
  obtain ⟨_, ipv4, rest⟩ := bind_eq_ok.mp rest
  obtain ⟨_, ipv6, -⟩ := bind_eq_ok.mp rest
  exact ⟨ipv4, ipv6⟩

/-- Both layers of quotes are undone: the script calls `networksetup` with the very arguments
that the code has put together, whatever the name of the service is. -/
theorem macos_script_carries_arguments {request : ApplyNetworkProfileRequest}
    (valid : validateRequest request = .ok ()) :
    ∃ ipv4 ipv6 appleScript,
      macosFamilyArgs (macosService request) request.ipv4 false = some ipv4 ∧
      macosFamilyArgs (macosService request) request.ipv6 true = some ipv6 ∧
      macosAppleScript request = some appleScript ∧
      (readShellScript appleScript).bind ShellWords.read =
        some [macosEnableArgs request, ipv4, ipv6, macosDnsArgs request] := by
  obtain ⟨valid4, valid6⟩ := validate_families valid
  obtain ⟨ipv4, args4, some4⟩ := macosFamilyArgs_isSome (macosService request) valid4
  obtain ⟨ipv6, args6, some6⟩ := macosFamilyArgs_isSome (macosService request) valid6
  have calls : ∀ words ∈ [macosEnableArgs request, ipv4, ipv6, macosDnsArgs request],
      words ≠ [] := by
    simpa using ⟨cons_ne_nil _ _, some4, some6, cons_ne_nil _ _⟩
  have script : macosShellScript request =
      some (ShellWords.script [macosEnableArgs request, ipv4, ipv6, macosDnsArgs request]) := by
    rw [macosShellScript, macosFamilyCommand, args4, macosFamilyCommand, args6, shellJoin_eq]
    rfl
  have appleScript : macosAppleScript request = some (scriptOpening ++
      ((ShellWords.script [macosEnableArgs request, ipv4, ipv6, macosDnsArgs request]).flatMap
        escapeBackslash).flatMap escapeQuote ++ '"' :: scriptClosing) := by
    rw [macosAppleScript, script]
    rfl
  refine ⟨ipv4, ipv6, _, args4, args6, appleScript, ?_⟩
  rw [readShellScript_escape, Option.bind_some]
  exact ShellWords.read_script (cons_ne_nil _ _) calls

def sampleMacosRequest : ApplyNetworkProfileRequest where
  adapterId := "en0".toList
  serviceId := some "Wi-Fi' && \\\"rm\\' \"".toList
  ipv4 := {
    mode := .manual
    addresses := [⟨"10.0.0.2".toList, 24⟩]
    gateway := none }
  ipv6 := { mode := .automatic, addresses := [], gateway := none }
  dnsServers := ["1.1.1.1".toList]

theorem sample_macos_script_read :
    validateRequest sampleMacosRequest = .ok () ∧
      ∃ ipv4 ipv6 appleScript,
        macosFamilyArgs (macosService sampleMacosRequest) sampleMacosRequest.ipv4 false = some ipv4 ∧
        macosFamilyArgs (macosService sampleMacosRequest) sampleMacosRequest.ipv6 true = some ipv6 ∧
        macosAppleScript sampleMacosRequest = some appleScript ∧
        (readShellScript appleScript).bind ShellWords.read =
          some [macosEnableArgs sampleMacosRequest, ipv4, ipv6, macosDnsArgs sampleMacosRequest] := by
  have valid : validateRequest sampleMacosRequest = .ok () := rfl
  exact And.intro valid (macos_script_carries_arguments valid)

end Net
