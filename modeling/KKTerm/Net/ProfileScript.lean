import KKTerm.Library.Fallible
import KKTerm.Library.IpText
import KKTerm.Library.QuotedScript
import KKTerm.Library.Text

/-!
# Network profiles and their elevated script

A request to change the addresses of an adapter is validated and turned into a
PowerShell script that runs with administrator rights. The script is kept with
the places marked at which `ps_quote` puts a value in; the request's network
service, which the script does not use, is only validated.
-/

namespace Net

open Fallible IpText QuotedScript

inductive IpMode where
  | automatic
  | manual
  | disabled
  deriving DecidableEq

structure NetworkProfileAddress where
  address : List Char
  prefixLength : UInt8

structure NetworkFamilySnapshot where
  mode : IpMode
  addresses : List NetworkProfileAddress
  gateway : Option (List Char)

structure ApplyNetworkProfileRequest where
  adapterId : List Char
  serviceId : Option (List Char)
  ipv4 : NetworkFamilySnapshot
  ipv6 : NetworkFamilySnapshot
  dnsServers : List (List Char)

/-- The Unicode category `Cc`. -/
def isControl (c : Char) : Bool :=
  c.toNat < 0x20 || (0x7f ≤ c.toNat && c.toNat < 0xa0)

def validateIdentifier (value : List Char) (label : List Char) : Except (List Char) Unit :=
  reject (Text.trim value = [] ∨ 256 < (value.map Char.utf8Size).sum ∨ value.any isControl)
    ("invalid ".toList ++ label ++ " identifier".toList)

def validateEntry (ipv6 : Bool) (entry : NetworkProfileAddress) : Except (List Char) Unit := do
  let address ← require (parseIpAddr entry.address) ("invalid IP address: ".toList ++ entry.address)
  reject (address.isIpv6 ≠ ipv6 ∨ (if ipv6 then 128 else 32) < entry.prefixLength)
    ("invalid address family or prefix: ".toList ++ entry.address ++ '/' ::
      Nat.toDigits 10 entry.prefixLength.toNat)

def validateGateway (ipv6 : Bool) (gateway : List Char) : Except (List Char) Unit := do
  let address ← require (parseIpAddr gateway) ("invalid gateway address: ".toList ++ gateway)
  reject (address.isIpv6 ≠ ipv6) ("gateway has the wrong address family: ".toList ++ gateway)

def validateFamily (value : NetworkFamilySnapshot) (ipv6 : Bool) : Except (List Char) Unit := do
  reject (8 < value.addresses.length)
    "an address family may contain at most 8 addresses".toList
  reject (value.mode = .manual ∧ value.addresses = [])
    "manual addressing requires at least one address".toList
  forM value.addresses (validateEntry ipv6)
  value.gateway.elim (pure ()) (validateGateway ipv6)

def validateDns (dns : List Char) : Except (List Char) Unit := do
  let _ ← require (parseIpAddr dns) ("invalid DNS server address: ".toList ++ dns)

def validateRequest (request : ApplyNetworkProfileRequest) : Except (List Char) Unit := do
  validateIdentifier request.adapterId "adapter".toList
  request.serviceId.elim (pure ()) (validateIdentifier · "network service".toList)
  validateFamily request.ipv4 false
  validateFamily request.ipv6 true
  reject (8 < request.dnsServers.length)
    "a network profile may contain at most 8 DNS servers".toList
  forM request.dnsServers validateDns

abbrev Template := List (Piece Char (List Char))

def text (fixed : String) : Template :=
  fixed.toList.map .char

def number (n : Nat) : Template :=
  (Nat.toDigits 10 n).map .char

def quoted (value : List Char) : Template :=
  [.hole value]

def familyName (ipv6 : Bool) : String :=
  if ipv6 then "IPv6" else "IPv4"

/-- Binding changes can restart the whole adapter: both families' bindings come first. -/
def windowsBindingStatement (ipv6 : Bool) (family : NetworkFamilySnapshot) : Template :=
  text "$step='" ++ text (familyName ipv6) ++
    text " protocol binding'; $b=Get-NetAdapterBinding -Name (" ++
    text "[System.Management.Automation.WildcardPattern]::Escape($a.Name)) -ComponentID " ++
    text (if ipv6 then "ms_tcpip6" else "ms_tcpip") ++
    text " -ErrorAction Stop; if ($null -eq $b) \x7b throw 'Protocol binding not found' \x7d; " ++
    text "if ($b.Enabled -ne " ++ text (if family.mode = .disabled then "$false" else "$true") ++
    text ") \x7b " ++ text (if family.mode = .disabled then "Disable" else "Enable") ++
    text "-NetAdapterBinding -InputObject $b -Confirm:$false -ErrorAction Stop \x7d"

def windowsAddressStatement (gateway : Option (List Char)) (index : Nat)
    (address : NetworkProfileAddress) : Template :=
  text "$step='IPv4 static address " ++ number (index + 1) ++
    text "'; Invoke-KKNetsh @('interface','ipv4','" ++ text (if index = 0 then "set" else "add") ++
    text "','address',\"name=$($a.ifIndex)\"," ++
    (if index = 0 then
      text "'source=static','gateway=" ++ quoted (gateway.getD "none".toList) ++ text "',"
    else []) ++
    text "'address=" ++ quoted address.address ++ text "/" ++ number address.prefixLength.toNat ++
    text "','store=persistent')"

def windowsIpv4Statements (family : NetworkFamilySnapshot) : List Template :=
  match family.mode with
  | .disabled => []
  | .automatic =>
    [text "$step='IPv4 automatic addressing'; Invoke-KKNetsh @('interface','ipv4','set'," ++
      text "'address',\"name=$($a.ifIndex)\",'source=dhcp','store=persistent')"]
  | .manual => family.addresses.mapIdx (windowsAddressStatement family.gateway)

def windowsConfigureStatement (automatic : String) : Template :=
  text "$step='IPv6 automatic addressing'; Invoke-KKNetsh @('interface','ipv6','set'," ++
    text "'interface',\"interface=$($a.ifIndex)\",'routerdiscovery=" ++ text automatic ++
    text "','managedaddress=" ++ text automatic ++ text "','otherstateful=" ++ text automatic ++
    text "','store=persistent')"

/-- What was configured before is removed from a store. -/
def windowsCleanupStatements (automatic : Bool) (store : String) : List Template :=
  [text "$step='IPv6 " ++ text store ++ text " default routes'; Get-NetRoute -PolicyStore " ++
      text store ++ text " -ErrorAction Stop | Where-Object \x7b $_.InterfaceIndex -eq " ++
      text "$a.ifIndex -and $_.AddressFamily -eq 'IPv6' -and $_.DestinationPrefix -eq '::/0' \x7d" ++
      text (if automatic then " | Where-Object \x7b $_.Protocol -eq 'NetMgmt' \x7d" else "") ++
      text " | Remove-NetRoute -Confirm:$false -ErrorAction Stop",
    text "$step='IPv6 " ++ text store ++ text " addresses'; Get-NetIPAddress -PolicyStore " ++
      text store ++ text " -ErrorAction Stop | Where-Object \x7b $_.InterfaceIndex -eq " ++
      text "$a.ifIndex -and $_.AddressFamily -eq 'IPv6' \x7d | Where-Object " ++
      text (if automatic then "\x7b $_.PrefixOrigin -eq 'Manual' \x7d"
        else "\x7b $_.PrefixOrigin -ne 'WellKnown' \x7d") ++
      text " | Remove-NetIPAddress -Confirm:$false -ErrorAction Stop"]

def windowsIpv6AddressStatement (index : Nat) (address : NetworkProfileAddress) : Template :=
  text "$step='IPv6 static address " ++ number (index + 1) ++
    text "'; Invoke-KKNetsh @('interface','ipv6','add','address'," ++
    text "\"interface=$($a.ifIndex)\",'address=" ++ quoted address.address ++ text "/" ++
    number address.prefixLength.toNat ++ text "','store=persistent')"

def windowsIpv6GatewayStatement (gateway : List Char) : Template :=
  text "$step='IPv6 default gateway'; Invoke-KKNetsh @('interface','ipv6','add','route'," ++
    text "'prefix=::/0',\"interface=$($a.ifIndex)\",'nexthop=" ++ quoted gateway ++
    text "','store=persistent')"

def windowsIpv6Statements (family : NetworkFamilySnapshot) : List Template :=
  match family.mode with
  | .disabled => []
  | .automatic =>
    windowsCleanupStatements true "PersistentStore" ++ windowsCleanupStatements true "ActiveStore" ++
      [windowsConfigureStatement "enabled"]
  | .manual =>
    windowsConfigureStatement "disabled" ::
      (windowsCleanupStatements false "PersistentStore" ++
        windowsCleanupStatements false "ActiveStore" ++
        family.addresses.mapIdx windowsIpv6AddressStatement ++
        family.gateway.toList.map windowsIpv6GatewayStatement)

def windowsFamilyStatements (ipv6 : Bool) (family : NetworkFamilySnapshot) : List Template :=
  if ipv6 then windowsIpv6Statements family else windowsIpv4Statements family

/-- The servers of one family whose address was not seen before. -/
def freshServers (ipv6 : Bool) : List IpAddr → List (List Char) → List (List Char)
  | _, [] => []
  | seen, value :: rest =>
    match parseIpAddr value with
    | none => freshServers ipv6 seen rest
    | some address =>
      if address.isIpv6 = ipv6 ∧ address ∉ seen then
        value :: freshServers ipv6 (address :: seen) rest
      else freshServers ipv6 seen rest

def dnsFamilyName (ipv6 : Bool) : String :=
  if ipv6 then "ipv6" else "ipv4"

/-- The source is DHCP only when the request names no server at all. -/
def windowsDnsSetStatement (ipv6 : Bool) (dhcp : Bool) (servers : List (List Char)) : Template :=
  text "$step='" ++ text (dnsFamilyName ipv6) ++
    text " DNS server configuration'; Invoke-KKNetsh @('interface','" ++
    text (dnsFamilyName ipv6) ++ text "','set','dnsservers',\"name=$($a.ifIndex)\",'source=" ++
    text (if dhcp then "dhcp" else "static") ++ text "'," ++
    (if dhcp then []
    else text "'address=" ++ quoted (servers.head?.getD "none".toList) ++ text "',") ++
    text "'validate=no')"

def windowsDnsAddStatement (ipv6 : Bool) (index : Nat) (server : List Char) : Template :=
  text "Invoke-KKNetsh @('interface','" ++ text (dnsFamilyName ipv6) ++
    text "','add','dnsservers',\"name=$($a.ifIndex)\",'address=" ++ quoted server ++
    text "','index=" ++ number (index + 1) ++ text "','validate=no')"

def windowsDnsFamilyStatements (request : ApplyNetworkProfileRequest) (ipv6 : Bool)
    (family : NetworkFamilySnapshot) : List Template :=
  if family.mode = .disabled then []
  else
    let servers := freshServers ipv6 [] request.dnsServers
    windowsDnsSetStatement ipv6 request.dnsServers.isEmpty servers ::
      (servers.mapIdx (windowsDnsAddStatement ipv6)).drop 1

def windowsDnsStatements (request : ApplyNetworkProfileRequest) : List Template :=
  windowsDnsFamilyStatements request false request.ipv4 ++
    windowsDnsFamilyStatements request true request.ipv6

def windowsLookupStatement (adapterId : List Char) : Template :=
  text "$step='adapter lookup'; $a=Get-NetAdapter -ErrorAction Stop | Where-Object " ++
    text "\x7b $_.InterfaceGuid.ToString() -eq '" ++ quoted adapterId ++
    text "' \x7d | Select-Object -First 1; if ($null -eq $a) " ++
    text "\x7b throw 'Network adapter not found' \x7d"

def windowsRefreshStatement (adapterId : List Char) : Template :=
  text "$step='adapter refresh'; $a=Get-NetAdapter -ErrorAction Stop | Where-Object " ++
    text "\x7b $_.InterfaceGuid.ToString() -eq '" ++ quoted adapterId ++
    text "' \x7d | Select-Object -First 1; if ($null -eq $a -or $a.ifIndex -le 0) " ++
    text "\x7b throw 'Network adapter is no longer available' \x7d"

def windowsStatements (request : ApplyNetworkProfileRequest) : List Template :=
  windowsLookupStatement request.adapterId ::
    windowsBindingStatement false request.ipv4 :: windowsBindingStatement true request.ipv6 ::
    windowsRefreshStatement request.adapterId ::
    (windowsFamilyStatements false request.ipv4 ++ windowsFamilyStatements true request.ipv6 ++
      windowsDnsStatements request)

def scriptHead : Template :=
  text "$ErrorActionPreference='Stop'; $ProgressPreference='SilentlyContinue'; $writer=$null\n" ++
    text "function Invoke-KKNetsh \x7b\n" ++
    text "  param([string[]]$Arguments)\n" ++
    text "  $output = & (Join-Path ([Environment]::SystemDirectory) 'netsh.exe') @Arguments 2>&1\n" ++
    text "  $code = $LASTEXITCODE\n" ++
    text "  if ($code -ne 0) \x7b throw (\"netsh exited with \" + $code + ': ' + " ++
    text "($output -join ' ').Trim()) \x7d\n" ++
    text "\x7d\n" ++
    text "try \x7b\n" ++
    text "$stream=[System.IO.File]::Open('"

def scriptOpened : Template :=
  text "', [System.IO.FileMode]::Open, [System.IO.FileAccess]::Write, " ++
    text "[System.IO.FileShare]::ReadWrite)\n" ++
    text "$writer=[System.IO.StreamWriter]::new($stream, [System.Text.UTF8Encoding]::new($false))\n"

def scriptTail : Template :=
  text "\n$writer.Write('OK'); $writer.Flush(); exit 0\n" ++
    text "\x7d catch \x7b\n" ++
    text "if ($null -ne $writer) \x7b\n" ++
    text "  $message=$step + ': ' + $_.Exception.Message + ' [' + $_.FullyQualifiedErrorId + ']'\n" ++
    text "  if ($message.Length -gt 6000) \x7b $message=$message.Substring(0,6000) \x7d\n" ++
    text "  $writer.Write(\"ERROR`n\" + $message); $writer.Flush()\n" ++
    text "\x7d\n" ++
    text "exit 1\n" ++
    text "\x7d finally \x7b if ($null -ne $writer) \x7b $writer.Dispose() \x7d \x7d"

/-- The script with the places of its values. -/
def windowsApplyTemplate (request : ApplyNetworkProfileRequest) (reportPath : List Char) : Template :=
  scriptHead ++ quoted reportPath ++ scriptOpened ++
    (text ";\n").intercalate (windowsStatements request) ++ scriptTail

def isApostrophe (c : Char) : Bool :=
  c = '\''

/-- `value.replace('\'', "''")`. -/
def psQuote (value : List Char) : List Char :=
  value.flatMap (double isApostrophe)

def putIn : Piece Char (List Char) → List Char
  | .char c => [c]
  | .hole value => psQuote value

/-- The script that is run: every value is put in through `ps_quote`. -/
def windowsApplyScript (request : ApplyNetworkProfileRequest) (reportPath : List Char) : List Char :=
  (windowsApplyTemplate request reportPath).flatMap putIn

end Net
