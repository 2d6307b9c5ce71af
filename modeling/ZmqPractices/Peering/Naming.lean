import Mathlib.Data.List.ProdSigma
import ZmqPractices.Lib.Decimal
import ZmqPractices.Peering.StateFlow

/-!
The endpoints of the brokers (`endpoint.cpp`), and the addresses they denote.

The ipc endpoint ends with the kind, which has no `-`, so the last `-` takes it apart
whatever the name is. The tcp endpoint is a prefix digit and the name, read as one number;
the prefix of `state` is zero, which does not count in a number, so the state endpoint of
one broker can be another endpoint of a broker with a shorter name (`Shadows`), and this is
the only collision.
-/

namespace ZmqPractices.Peering

open Czmq Lib

/-- The endpoints of a broker. -/
inductive Kind where
  | state
  | localfe
  | localbe
  | cloud
  | monitor
deriving DecidableEq, Repr

/-- `#xxx`. -/
def Kind.text : Kind → Frame
  | .state => [0x73, 0x74, 0x61, 0x74, 0x65]
  | .localfe => [0x6c, 0x6f, 0x63, 0x61, 0x6c, 0x66, 0x65]
  | .localbe => [0x6c, 0x6f, 0x63, 0x61, 0x6c, 0x62, 0x65]
  | .cloud => [0x63, 0x6c, 0x6f, 0x75, 0x64]
  | .monitor => [0x6d, 0x6f, 0x6e, 0x69, 0x74, 0x6f, 0x72]

/-- `tcp_port_prefix`. -/
def Kind.tcpPortPrefix : Kind → UInt8
  | .state => 0
  | .localfe => 1
  | .localbe => 2
  | .cloud => 3
  | .monitor => 4

/-- `%d` of the prefix. -/
def Kind.digit (kind : Kind) : UInt8 := 0x30 + kind.tcpPortPrefix

/-- The two builds: without and with `WIN32`. -/
inductive Transport where
  | ipc
  | tcp
deriving DecidableEq, Repr

/-- `ipc://`. -/
def ipcScheme : Frame := [0x69, 0x70, 0x63, 0x3a, 0x2f, 0x2f]

/-- `tcp://127.0.0.1:`. -/
def tcpLocalhost : Frame :=
  [0x74, 0x63, 0x70, 0x3a, 0x2f, 0x2f, 0x31, 0x32, 0x37, 0x2e, 0x30, 0x2e, 0x30, 0x2e, 0x31, 0x3a]

/-- `xxx_endpoint (self)`: of the `#ifndef WIN32` branch, or
`sprintf (buf, "tcp://127.0.0.1:%d%s", tcp_port_prefix, self)`. -/
def endpoint (transport : Transport) (kind : Kind) (self : Frame) : Frame :=
  match transport with
  | .ipc => implementEndpoint kind.text self
  | .tcp => tcpLocalhost ++ kind.digit :: self

/-- What an endpoint denotes: a path, or a port of the local host. -/
inductive Address where
  | path (bytes : Frame)
  | port (number : Nat)
deriving DecidableEq, Repr

def addressOf (endpoint : Frame) : Option Address :=
  if startsWith endpoint ipcScheme then some (.path (endpoint.drop ipcScheme.length))
  else if startsWith endpoint tcpLocalhost then
    some (.port (decimal (endpoint.drop tcpLocalhost.length)))
  else none

/-- A broker and one of its endpoints. -/
structure EndpointName where
  name : Frame
  kind : Kind
deriving DecidableEq, Repr

def EndpointName.address (transport : Transport) (e : EndpointName) : Option Address :=
  addressOf (endpoint transport e.kind e.name)

/-- The names a build is for: any text that is not empty, or the digits of a number. -/
def Named : Transport → Frame → Prop
  | .ipc, name => name ≠ []
  | .tcp, name => Numeral name

/-- The endpoint `e` is a state endpoint, and the name of its broker is the prefix digit and
the name of the other endpoint, of another kind. -/
def EndpointName.Shadows (e e' : EndpointName) : Prop :=
  e.kind = .state ∧ e'.kind ≠ .state ∧ e.name = e'.kind.digit :: e'.name

/-! ### The two forms -/

/-- The last separator takes a text apart. -/
theorem last_separator {α : Type*} {sep : α} {a a' b b' : List α} (free : sep ∉ b)
    (free' : sep ∉ b') (same : a ++ sep :: b = a' ++ sep :: b') : a = a' ∧ b = b' := by
  rcases List.append_eq_append_iff.mp same with ⟨mid, rfl, rest⟩ | ⟨mid, rfl, rest⟩
  all_goals
    cases mid with
    | nil => simp_all
    | cons first mid =>
        simp only [List.cons_append, List.cons.injEq] at rest
        simp_all

theorem separator_notMem_text (kind : Kind) : 0x2d ∉ kind.text := by
  cases kind <;> decide

theorem text_injective : Function.Injective Kind.text := by
  intro kind kind' same
  cases kind <;> cases kind' <;> simp_all [Kind.text]

theorem digit_injective : Function.Injective Kind.digit := by
  intro kind kind' same
  revert same
  cases kind <;> cases kind' <;> decide

theorem isDigit_digit (kind : Kind) : IsDigit kind.digit := by
  cases kind <;> decide

theorem digit_eq_zero_iff {kind : Kind} : kind.digit = 0x30 ↔ kind = .state := by
  cases kind <;> decide

theorem address_ipc (e : EndpointName) :
    e.address .ipc = some (.path ((implementEndpoint e.kind.text e.name).drop ipcScheme.length)) :=
  rfl

theorem address_tcp (e : EndpointName) :
    e.address .tcp = some (.port (decimal (e.kind.digit :: e.name))) :=
  rfl

/-- The ipc paths are apart. -/
theorem address_ipc_injective : Function.Injective (EndpointName.address .ipc) := by
  intro e e' same
  rw [address_ipc, address_ipc, Option.some.injEq, Address.path.injEq] at same
  have same : ipcTmp.drop ipcScheme.length ++ e.name ++ [0x2d] ++ e.kind.text ++ dotIpc =
      ipcTmp.drop ipcScheme.length ++ e'.name ++ [0x2d] ++ e'.kind.text ++ dotIpc := same
  simp only [List.append_assoc, List.append_cancel_left_eq, List.singleton_append] at same
  have same : e.name ++ 0x2d :: e.kind.text = e'.name ++ 0x2d :: e'.kind.text :=
    List.append_cancel_right (by simpa only [List.append_assoc, List.cons_append] using same)
  obtain ⟨name, text⟩ :=
    last_separator (separator_notMem_text e.kind) (separator_notMem_text e'.kind) same
  cases e
  cases e'
  rw [EndpointName.mk.injEq]
  exact ⟨name, text_injective text⟩

/-- The digits of the port that count. -/
def EndpointName.numeral (e : EndpointName) : Frame :=
  if e.kind = .state then e.name else e.kind.digit :: e.name

theorem numeral_numeral {e : EndpointName} (named : Numeral e.name) : Numeral e.numeral := by
  unfold EndpointName.numeral
  split
  · exact named
  · rename_i other
    exact named.cons (isDigit_digit e.kind) fun zero => other (digit_eq_zero_iff.mp zero)

theorem address_tcp_numeral (e : EndpointName) :
    e.address .tcp = some (.port (decimal e.numeral)) := by
  rw [address_tcp, EndpointName.numeral]
  split
  · rename_i state
    rw [digit_eq_zero_iff.mpr state, decimal_zero_cons]
  · rfl

/-- Two endpoints have the same digits only if one is the other, or shadows it. -/
theorem numeral_eq_iff {e e' : EndpointName} :
    e.numeral = e'.numeral ↔ e = e' ∨ e.Shadows e' ∨ e'.Shadows e := by
  obtain ⟨name, kind⟩ := e
  obtain ⟨name', kind'⟩ := e'
  unfold EndpointName.numeral EndpointName.Shadows
  by_cases state : kind = .state <;> by_cases state' : kind' = .state
  · simp [state, state']
  · simp [state, state', Ne.symm state']
  · simp [state, state', eq_comm]
  · simp only [state, state', if_false, List.cons.injEq, digit_injective.eq_iff,
      EndpointName.mk.injEq, false_and, or_false]
    exact and_comm

/-- Two endpoints denote one address in the ipc build only if they are the same, and in the
tcp build also if one shadows the other. -/
theorem address_eq_iff {transport : Transport} {e e' : EndpointName}
    (named : Named transport e.name) (named' : Named transport e'.name) :
    e.address transport = e'.address transport ↔
      e = e' ∨ transport = .tcp ∧ (e.Shadows e' ∨ e'.Shadows e) := by
  cases transport with
  | ipc => simp [address_ipc_injective.eq_iff]
  | tcp =>
      rw [address_tcp_numeral, address_tcp_numeral, Option.some.injEq, Address.port.injEq]
      have apart : decimal e.numeral = decimal e'.numeral ↔ e.numeral = e'.numeral :=
        ⟨(numeral_numeral named).decimal_injective (numeral_numeral named'), congrArg decimal⟩
      rw [apart, numeral_eq_iff]
      simp

/-- **Endpoint names.** Two different endpoints denote different addresses, but for a state
endpoint in the tcp build and the endpoint it shadows. -/
theorem distinct_addresses_iff (transport : Transport) {e e' : EndpointName}
    (named : Named transport e.name) (named' : Named transport e'.name) (ne : e ≠ e') :
    e.address transport ≠ e'.address transport ↔
      transport = .ipc ∨ ¬ (e.Shadows e' ∨ e'.Shadows e) := by
  rw [Ne, address_eq_iff named named']
  cases transport <;> simp [ne]

/-- The state and the localfe endpoint of broker 555. -/
theorem distinct_addresses_iff_one_broker :
    (⟨[0x35, 0x35, 0x35], .state⟩ : EndpointName).address .tcp ≠
      (⟨[0x35, 0x35, 0x35], .localfe⟩ : EndpointName).address .tcp := by
  have named : Named .tcp [0x35, 0x35, 0x35] := Numeral.of_leading (by decide) (by decide)
  refine (distinct_addresses_iff .tcp named named (by decide)).mpr (.inr ?_)
  rintro (⟨-, -, same⟩ | ⟨other, -⟩)
  · exact absurd same (by decide)
  · exact absurd other (by decide)

/-- The state endpoint of broker 1555 and the localfe endpoint of broker 555 are both port
1555. -/
theorem state_is_localfe :
    Named .tcp [0x31, 0x35, 0x35, 0x35] ∧ Named .tcp [0x35, 0x35, 0x35] ∧
      (⟨[0x31, 0x35, 0x35, 0x35], .state⟩ : EndpointName) ≠ ⟨[0x35, 0x35, 0x35], .localfe⟩ ∧
      (⟨[0x31, 0x35, 0x35, 0x35], .state⟩ : EndpointName).address .tcp = some (.port 1555) ∧
      (⟨[0x35, 0x35, 0x35], .localfe⟩ : EndpointName).address .tcp = some (.port 1555) :=
  ⟨Numeral.of_leading (by decide) (by decide), Numeral.of_leading (by decide) (by decide),
    by decide, by decide, by decide⟩

/-! ### The sockets of a cluster -/

/-- The endpoints that the brokers bind, each in the order of its `main`. -/
def boundEndpoints (names : List Frame) : List EndpointName :=
  (names.product [.localfe, .localbe, .cloud, .state, .monitor]).map fun p => ⟨p.1, p.2⟩

theorem mem_boundEndpoints {names : List Frame} {e : EndpointName} :
    e ∈ boundEndpoints names ↔ e.name ∈ names := by
  obtain ⟨name, kind⟩ := e
  cases kind <;> simp [boundEndpoints]

theorem nodup_boundEndpoints {names : List Frame} (nodup : names.Nodup) :
    (boundEndpoints names).Nodup := by
  have kinds : ([.localfe, .localbe, .cloud, .state, .monitor] : List Kind).Nodup := by decide
  refine (nodup.product kinds).map fun p q same => ?_
  rw [EndpointName.mk.injEq] at same
  exact Prod.ext same.1 same.2

/-- The brokers of a cluster on one host bind different addresses exactly if, in the tcp
build, no name is the prefix digit of another kind and a name. -/
theorem bound_addresses_nodup_iff (transport : Transport) {names : List Frame}
    (nodup : names.Nodup) (named : ∀ name ∈ names, Named transport name) :
    ((boundEndpoints names).map (EndpointName.address transport)).Nodup ↔
      (transport = .tcp →
        ∀ name ∈ names, ∀ kind : Kind, kind ≠ .state → kind.digit :: name ∉ names) := by
  rw [List.nodup_map_iff_inj_on (nodup_boundEndpoints nodup)]
  constructor
  · rintro apart rfl name mem kind other longer
    have shadows : EndpointName.Shadows ⟨kind.digit :: name, .state⟩ ⟨name, kind⟩ :=
      ⟨rfl, other, rfl⟩
    have same := apart _ (mem_boundEndpoints.mpr longer) _ (mem_boundEndpoints.mpr mem)
      ((address_eq_iff (named _ longer) (named _ mem)).mpr (.inr ⟨rfl, .inl shadows⟩))
    exact other (congrArg EndpointName.kind same).symm
  · intro free e mem e' mem' same
    rw [mem_boundEndpoints] at mem mem'
    rcases (address_eq_iff (named _ mem) (named _ mem')).mp same with same | ⟨tcp, shadows⟩
    · exact same
    · rcases shadows with ⟨-, other, longer⟩ | ⟨-, other, longer⟩
      · exact absurd (longer ▸ mem) (free tcp _ mem' _ other)
      · exact absurd (longer ▸ mem') (free tcp _ mem _ other)

/-- Names of one length are safe in both builds. -/
theorem bound_addresses_nodup_of_length (transport : Transport) {names : List Frame} {n : Nat}
    (nodup : names.Nodup) (named : ∀ name ∈ names, Named transport name)
    (length : ∀ name ∈ names, name.length = n) :
    ((boundEndpoints names).map (EndpointName.address transport)).Nodup := by
  refine (bound_addresses_nodup_iff transport nodup named).mpr fun _ name mem kind _ longer => ?_
  have := length _ longer
  rw [List.length_cons, length name mem] at this
  omega

end ZmqPractices.Peering
