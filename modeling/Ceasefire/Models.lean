/-
# The service's data: `service/src/models.rs`, `error.rs`

A `Rule` is what the GUI edits, the database stores and the converter sends to
the driver; a `ConnectionInfo` is what the service matches rules against.  The
strings stay strings: an address condition is the text the user typed, parsed
again by every function that needs it.
-/

import Ceasefire.Base.Net

namespace Ceasefire

/-- `models.rs`, `PortRange`. -/
inductive PortRange
  | single (port : U16)
  | range (start finish : U16)
  deriving DecidableEq, Repr

/-- `PortRange::matches`. -/
def PortRange.matches : PortRange → U16 → Bool
  | .single p, port => p == port
  | .range start finish, port => start ≤ port && port ≤ finish

/-- `models.rs`, `NetworkZone`. -/
inductive NetworkZone
  | internet
  | localhost
  | lan
  deriving DecidableEq, Repr

/-- `models.rs`, `RuleAction`. -/
inductive RuleAction
  | allow
  | block
  deriving DecidableEq, Repr

/-- `models.rs`, `Direction`. -/
inductive Direction
  | both
  | inbound
  | outbound
  deriving DecidableEq, Repr

/-- `models.rs`, `Protocol`. -/
inductive Protocol
  | any
  | tcp
  | udp
  | icmp
  | icmpv6
  deriving DecidableEq, Repr

/-- `models.rs`, `Rule`. -/
structure Rule where
  id : Option U32
  name : String
  description : String
  enabled : Bool
  priority : U32
  action : RuleAction
  direction : Direction
  protocol : Option Protocol
  processId : Option U32
  processPath : Option String
  remoteAddr : Option String
  remoteAddrMask : Option U8
  remoteDomain : Option String
  remotePort : Option PortRange
  localAddr : Option String
  localAddrMask : Option U8
  localPort : Option PortRange
  networkZone : Option NetworkZone
  appGroupId : Option U32
  createdAt : Option String
  updatedAt : Option String
  deriving DecidableEq, Repr

/-- `models.rs`, `ConnectionInfo`: the fields a rule is matched against. -/
structure ConnectionInfo where
  localAddr : String
  localPort : U16
  remoteAddr : String
  remotePort : U16
  protocol : Protocol
  processId : Option U32
  processName : Option String
  processPath : Option String
  direction : Direction
  deriving DecidableEq, Repr

/-- `models.rs`, `AppGroup`. -/
structure AppGroup where
  id : Option U32
  name : String
  description : String
  enabled : Bool
  isPredefined : Bool
  createdAt : Option String
  updatedAt : Option String
  deriving DecidableEq, Repr

/-- `models.rs`, `ExportedRule`: an entry of an export file. -/
structure ExportedRule where
  name : String
  description : String
  enabled : Bool
  priority : U32
  action : RuleAction
  direction : Direction
  protocol : Option Protocol
  processPath : Option String
  remoteAddr : Option String
  remoteAddrMask : Option U8
  remoteDomain : Option String
  remotePort : Option PortRange
  localAddr : Option String
  localAddrMask : Option U8
  localPort : Option PortRange
  networkZone : Option NetworkZone
  group : Option String
  deriving DecidableEq, Repr

/-- `models.rs`, `ImportMode`. -/
inductive ImportMode
  | merge
  | replace
  deriving DecidableEq, Repr

/-- `models.rs`, `ImportStats`. -/
structure ImportStats where
  imported : ℕ
  skipped : ℕ
  groupsCreated : ℕ
  deriving DecidableEq, Repr

/-- `error.rs`, `ServiceError`: the errors that the rule functions return. -/
inductive ServiceError
  | database (message : String)
  | driver (message : String)
  | validation (message : String)
  | notFound (message : String)
  deriving DecidableEq, Repr

/-- `ServiceError::to_string`. -/
def ServiceError.display : ServiceError → String
  | database message => s!"Database error: {message}"
  | driver message => s!"Driver error: {message}"
  | validation message => s!"Validation error: {message}"
  | notFound message => s!"Not found: {message}"

/-- `error.rs`, `Result<T>`. -/
abbrev Result (α : Type) := Except ServiceError α

/-- `if p { return Err(e) }`. -/
def rejectIf {ε : Type} (p : Prop) [Decidable p] (e : ε) : Except ε Unit :=
  if p then .error e else .ok ()

@[simp] theorem rejectIf_ok {ε : Type} {p : Prop} [Decidable p] {e : ε} {u : Unit} :
    rejectIf p e = .ok u ↔ ¬ p := by
  by_cases h : p <;> simp [rejectIf, h]

/-- `o.ok_or(e)?`. -/
def okOr {ε α : Type} (o : Option α) (e : ε) : Except ε α :=
  match o with
  | some a => .ok a
  | none => .error e

@[simp] theorem okOr_ok {ε α : Type} {o : Option α} {e : ε} {a : α} :
    okOr o e = .ok a ↔ o = some a := by
  cases o <;> simp [okOr]

/-- A sequence succeeds when its steps do. -/
theorem bind_ok_iff {ε α β : Type} {x : Except ε α} {f : α → Except ε β} {b : β} :
    (x >>= f) = .ok b ↔ ∃ a, x = .ok a ∧ f a = .ok b := by
  cases x <;> simp [bind, Except.bind]

/-- What the service takes from its surroundings: the Unicode tables behind
`str::to_lowercase`, and the device name behind a drive letter, `none` when
`QueryDosDeviceW` fails or gives no valid name. -/
structure Platform where
  toLowercase : List Char → List Char
  queryDosDevice : Char → Option (List Char)

/-- A platform for paths in ASCII, with `C:` on the third volume. -/
def asciiPlatform : Platform where
  toLowercase := List.map Char.toLower
  queryDosDevice drive :=
    if drive = 'C' ∨ drive = 'c' then some "\\Device\\HarddiskVolume3".toList else none

end Ceasefire
