import Mathlib.Tactic.Common

/-!
# What an imported file offers

The importers of connection files answer with drafts, in the order of the file, and with
warnings about what they had to leave out.
-/

namespace Import

inductive ConnectionType where
  | ssh
  | telnet
  | serial
  | rdp
  | url
  | vnc
  | localShell
  deriving DecidableEq

structure ImportedConnectionDraft where
  name : List Char
  host : List Char
  user : List Char
  url : Option (List Char)
  port : Option Nat
  keyPath : Option (List Char)
  proxyJump : Option (List Char)
  connectionType : ConnectionType
  folderPath : List (List Char)
  deriving DecidableEq

structure ImportFilePreview where
  format : List Char
  drafts : List ImportedConnectionDraft
  warnings : List (List Char)
  deriving DecidableEq

end Import
