import Gortsp.Routine
import Gortsp.Ledger
import Mathlib.Algebra.Group.Int.Defs
import Mathlib.Algebra.Group.Nat.Defs
import Mathlib.Logic.Function.Basic

namespace Gortsp
set_option autoImplicit true

/-- How the C++ program breaks off: by undefined behaviour, or by an exception nobody catches. -/
inductive Fault where
  | nullDeref
  | nullString
  | outOfBounds
  | badFunctionCall
  deriving DecidableEq, Repr

def Fault.deref : Option α → Except Fault α
  | some v => .ok v
  | none => .error .nullDeref

theorem Fault.deref_ok {o : Option α} (h : Fault.deref o = .ok v) : o = some v := by
  cases o with
  | none => cases h
  | some w => cases h; rfl

def Fault.inBounds : Option α → Except Fault α
  | some v => .ok v
  | none => .error .outOfBounds

/-- A `std::string`; `max_size()` keeps its length within `ptrdiff_t`. -/
structure StdString where
  bytes : List UInt8
  length_lt : bytes.length < 2 ^ 63
  deriving DecidableEq

def StdString.size (data : StdString) : Nat := data.bytes.length

def StdString.empty : StdString := ⟨[], by decide⟩

def StdString.ofCharPtr : Option StdString → Except Fault StdString
  | some data => .ok data
  | none => .error .nullString

inductive SockKind where
  | stream
  | dgram
  deriving DecidableEq, Repr

inductive Protocol where
  | tcp
  | udp
  deriving DecidableEq, Repr

def inaddrAny : BitVec 32 := 0

def htons (port : UInt16) : UInt16 :=
  UInt16.ofNat (port.toNat % 256 * 256 + port.toNat / 256)

def ntohs (port : UInt16) : UInt16 := htons port

theorem htons_toNat (port : UInt16) :
    (htons port).toNat = port.toNat % 256 * 256 + port.toNat / 256 := by
  have hlt : port.toNat < 65536 := port.toNat_lt
  rw [htons, UInt16.toNat_ofNat', Nat.mod_eq_of_lt (by omega)]

theorem ntohs_htons (port : UInt16) : ntohs (htons port) = port := by
  have hlt : port.toNat < 65536 := port.toNat_lt
  apply UInt16.toNat_inj.1
  rw [ntohs, htons_toNat, htons_toNat]
  omega

theorem htons_eq_zero {port : UInt16} (h : htons port = 0) : port = 0 := by
  have hzero : ntohs 0 = 0 := by decide
  rw [← ntohs_htons port, h, hzero]

/-- `struct sockaddr_in` of family `AF_INET`; the port is in network byte order. -/
structure SockaddrIn where
  sinAddr : BitVec 32
  sinPort : UInt16
  deriving DecidableEq, Repr

structure FreePort where
  port : UInt16
  ne_zero : port ≠ 0
  deriving DecidableEq

def FreePort.first : FreePort := ⟨32768, by decide⟩

/-- Where `::bind` puts a socket: with port 0 it is asked to pick a port. -/
def SockaddrIn.assigned (addr : SockaddrIn) (picked : FreePort) : SockaddrIn :=
  if addr.sinPort = 0 then { addr with sinPort := htons picked.port } else addr

def oNonblock : BitVec 32 := BitVec.twoPow 32 11

/-- File status flags. `fcntl(F_GETFL)` returns them as an `int` that is never negative. -/
structure FlagWord where
  word : BitVec 32
  msb_eq : word.msb = false
  deriving DecidableEq

def FlagWord.none : FlagWord := ⟨0, rfl⟩

theorem FlagWord.slt_zero (flags : FlagWord) : flags.word.slt 0 = false :=
  BitVec.slt_zero_eq_msb.trans flags.msb_eq

def FlagWord.nonblocking (flags : FlagWord) : FlagWord where
  word := flags.word ||| oNonblock
  msb_eq := by
    rw [BitVec.msb_or, flags.msb_eq]
    decide

theorem FlagWord.nonblocking_of_set {flags : FlagWord} (h : flags.word &&& oNonblock ≠ 0) :
    flags.nonblocking = flags := by
  have hbit : flags.word.getLsbD 11 = true := by
    by_contra hno
    rw [oNonblock, BitVec.and_twoPow, if_neg hno] at h
    exact h rfl
  have hword : flags.word ||| oNonblock = flags.word := by
    apply BitVec.eq_of_getLsbD_eq
    intro i hi
    rw [BitVec.getLsbD_or, oNonblock, BitVec.getLsbD_twoPow]
    by_cases he : 11 = i
    · rw [← he, hbit, Bool.true_or]
    · simp only [he, decide_false, Bool.and_false, Bool.or_false]
  cases flags
  simp only [nonblocking, FlagWord.mk.injEq]
  exact hword

/-- The kernel's side of a socket. `sent` holds the bytes `::send` took over, in order. -/
structure KernelSocket where
  kind : SockKind
  protocol : Protocol
  localAddr : Option SockaddrIn
  listening : Bool
  flags : FlagWord
  sent : List UInt8
  deriving DecidableEq

def KernelSocket.BoundTo (f : KernelSocket) (ip : BitVec 32) (port : UInt16) : Prop :=
  ∃ addr, f.localAddr = some addr ∧ addr.sinAddr = ip ∧ ntohs addr.sinPort = port

/-- At the port that was asked for, or at some port if that was 0. -/
def KernelSocket.BoundFor (f : KernelSocket) (ip : BitVec 32) (port : UInt16) : Prop :=
  ∃ q, f.BoundTo ip q ∧ q ≠ 0 ∧ (port ≠ 0 → q = port)

inductive Call where
  | socket (kind : SockKind) (protocol : Protocol) (ret : Int)
  | fcntlGetfl (fd : Int) (ret : BitVec 32)
  | fcntlSetfl (fd : Int) (arg : BitVec 32) (ret : Int)
  | bind (fd : Int) (addr : SockaddrIn) (ret : Int)
  | listen (fd : Int) (backlog : Int) (ret : Int)
  | accept (fd : Int) (ret : Int)
  | send (fd : Int) (data : StdString) (ret : Int)
  | close (fd : Int)
  deriving DecidableEq

def Call.succeeded : Call → Bool
  | .socket _ _ ret => decide (0 ≤ ret)
  | .fcntlGetfl _ ret => !ret.msb
  | .fcntlSetfl _ _ ret => decide (0 ≤ ret)
  | .bind _ _ ret => decide (0 ≤ ret)
  | .listen _ _ ret => decide (0 ≤ ret)
  | .accept _ ret => decide (0 ≤ ret)
  | .send _ _ ret => decide (0 ≤ ret)
  | .close _ => true

def Call.entry : Call → Option (Ledger.Entry Int)
  | .socket _ _ ret => if 0 ≤ ret then some (.acquire ret) else none
  | .accept _ ret => if 0 ≤ ret then some (.acquire ret) else none
  | .close fd => some (.release fd)
  | _ => none

def Call.connection : Call → Option Int
  | .accept _ ret => if 0 ≤ ret then some ret else none
  | _ => none

theorem Call.connection_of_entry {c : Call} (h : c.entry = none) : c.connection = none := by
  cases c with
  | accept fd ret =>
    simp only [Call.entry] at h
    split at h
    · cases h
    · next hn => exact if_neg hn
  | _ => rfl

/-- Open descriptors are never negative. -/
structure Kernel where
  table : Int → Option KernelSocket
  log : List Call
  table_neg : ∀ fd, fd < 0 → table fd = none

/-- How the kernel answers the calls made during one operation: the number `::socket` and
`::accept` would hand out and the initial flags of that descriptor, which calls fail, the port
that `::bind` picks, and how many bytes `::send` takes. A `SIGPIPE` is not an answer: it comes
besides a failed `::send`, and what it does is up to the program. -/
structure Answers where
  socket : Option Int := none
  accept : Option Int := none
  flags : FlagWord := .none
  getfl : Bool := false
  setfl : Bool := false
  bind : Bool := false
  freePort : FreePort := .first
  listen : Bool := false
  send : Option Nat := none
  deriving DecidableEq

def Answers.SetsFlag (a : Answers) (flags : FlagWord) : Prop :=
  flags.word &&& oNonblock ≠ 0 ∨ a.setfl = true

def Answers.portFor (a : Answers) (port : UInt16) : UInt16 :=
  if port = 0 then a.freePort.port else port

theorem Answers.portFor_ne_zero (a : Answers) (port : UInt16) : a.portFor port ≠ 0 := by
  rw [portFor]
  split
  · exact a.freePort.ne_zero
  · next h => exact h

theorem Answers.portFor_eq (a : Answers) {port : UInt16} (h : port ≠ 0) : a.portFor port = port :=
  if_neg h

namespace Kernel

def boot : Kernel := ⟨fun _ => none, [], fun _ _ => rfl⟩

def record (k : Kernel) (c : Call) : Kernel := { k with log := k.log ++ [c] }

/-- A descriptor handed out is a non-negative number that is not in use. -/
def grant (k : Kernel) : Option Int → Int
  | some fd => if 0 ≤ fd ∧ k.table fd = none then fd else -1
  | none => -1

def install (k : Kernel) (fd : Int) (f : KernelSocket) : Kernel where
  table := if 0 ≤ fd then Function.update k.table fd (some f) else k.table
  log := k.log
  table_neg := by
    intro n hn
    split
    · rw [Function.update_of_ne (by omega)]
      exact k.table_neg n hn
    · exact k.table_neg n hn

def modify (k : Kernel) (fd : Int) (g : KernelSocket → KernelSocket) : Kernel where
  table := Function.update k.table fd ((k.table fd).map g)
  log := k.log
  table_neg := by
    intro n hn
    by_cases h : n = fd
    · rw [h, Function.update_self, k.table_neg fd (h ▸ hn), Option.map_none]
    · rw [Function.update_of_ne h]
      exact k.table_neg n hn

def release (k : Kernel) (fd : Int) : Kernel where
  table := Function.update k.table fd none
  log := k.log
  table_neg := by
    intro n hn
    by_cases h : n = fd
    · rw [h, Function.update_self]
    · rw [Function.update_of_ne h]
      exact k.table_neg n hn

@[simp] theorem record_table (k : Kernel) (c : Call) : (k.record c).table = k.table := rfl

@[simp] theorem record_log (k : Kernel) (c : Call) : (k.record c).log = k.log ++ [c] := rfl

@[simp] theorem install_log (k : Kernel) (fd : Int) (f : KernelSocket) :
    (k.install fd f).log = k.log := rfl

@[simp] theorem modify_log (k : Kernel) (fd : Int) (g : KernelSocket → KernelSocket) :
    (k.modify fd g).log = k.log := rfl

@[simp] theorem modify_table (k : Kernel) (fd : Int) (g : KernelSocket → KernelSocket) :
    (k.modify fd g).table = Function.update k.table fd ((k.table fd).map g) := rfl

theorem install_table (k : Kernel) {fd : Int} (h : 0 ≤ fd) (f : KernelSocket) :
    (k.install fd f).table = Function.update k.table fd (some f) := if_pos h

theorem install_table_of_ne (k : Kernel) (f : KernelSocket) (h : n ≠ fd) :
    (k.install fd f).table n = k.table n := by
  simp only [install]
  split
  · exact Function.update_of_ne h _ _
  · rfl

theorem install_self (k : Kernel) {fd : Int} (h : 0 ≤ fd) (f : KernelSocket) :
    (k.install fd f).table fd = some f := by
  rw [install_table k h, Function.update_self]

@[simp] theorem install_neg (k : Kernel) (f : KernelSocket) : k.install (-1) f = k := rfl

theorem grant_some (k : Kernel) {fd : Int} (h₀ : 0 ≤ fd) (h : k.table fd = none) :
    k.grant (some fd) = fd := if_pos ⟨h₀, h⟩

theorem grant_cases (k : Kernel) (choice : Option Int) :
    k.grant choice = -1 ∨ 0 ≤ k.grant choice ∧ k.table (k.grant choice) = none := by
  cases choice with
  | none => exact .inl rfl
  | some fd =>
    by_cases h : 0 ≤ fd ∧ k.table fd = none
    · rw [grant, if_pos h]
      exact .inr h
    · exact .inl (if_neg h)

theorem nonneg_of_table (k : Kernel) {fd : Int} {f : KernelSocket} (h : k.table fd = some f) :
    0 ≤ fd := by
  by_contra hn
  rw [k.table_neg fd (by omega)] at h
  cases h

theorem table_of_update {k : Kernel} {table : Int → Option KernelSocket}
    (h : k.table = Function.update table n (some f)) : k.table n = some f := by
  rw [h, Function.update_self]

theorem ne_of_free {k : Kernel} {f : KernelSocket} (hf : k.table n = some f)
    (hfree : k.table m = none) : m ≠ n := by
  intro he
  rw [he, hf] at hfree
  cases hfree

end Kernel

abbrev Sys := Routine Answers Kernel Fault

namespace Sys

def socket (kind : SockKind) (protocol : Protocol) : Sys Int := ⟨fun a k =>
  let fd := k.grant a.socket
  .ok (fd, (k.install fd ⟨kind, protocol, none, false, a.flags, []⟩).record
    (.socket kind protocol fd))⟩

def fcntlGetfl (fd : Int) : Sys (BitVec 32) := ⟨fun a k =>
  let ret := match k.table fd with
    | some f => if a.getfl then f.flags.word else -1
    | none => -1
  .ok (ret, k.record (.fcntlGetfl fd ret))⟩

/-- The kernel ignores an argument that is no flag word. -/
def fcntlSetfl (fd : Int) (arg : BitVec 32) : Sys Int := ⟨fun a k =>
  if (k.table fd).isSome ∧ a.setfl then
    let set (f : KernelSocket) : KernelSocket :=
      if h : arg.msb = false then { f with flags := ⟨arg, h⟩ } else f
    .ok (0, (k.modify fd set).record (.fcntlSetfl fd arg 0))
  else .ok (-1, k.record (.fcntlSetfl fd arg (-1)))⟩

def bind (fd : Int) (addr : SockaddrIn) : Sys Int := ⟨fun a k =>
  if (k.table fd).isSome ∧ a.bind then
    .ok (0, (k.modify fd ({ · with localAddr := some (addr.assigned a.freePort) })).record
      (.bind fd addr 0))
  else .ok (-1, k.record (.bind fd addr (-1)))⟩

def listen (fd : Int) (backlog : Int) : Sys Int := ⟨fun a k =>
  if (k.table fd).isSome ∧ a.listen then
    .ok (0, (k.modify fd ({ · with listening := true })).record (.listen fd backlog 0))
  else .ok (-1, k.record (.listen fd backlog (-1)))⟩

def accept (fd : Int) : Sys Int := ⟨fun a k =>
  match k.table fd with
  | some f =>
    let ret := if f.listening then k.grant a.accept else -1
    .ok (ret, (k.install ret ⟨.stream, .tcp, f.localAddr, false, a.flags, []⟩).record
      (.accept fd ret))
  | none => .ok (-1, k.record (.accept fd (-1)))⟩

/-- `::send` either fails or takes over a prefix of the data. -/
def send (fd : Int) (data : StdString) : Sys Int := ⟨fun a k =>
  match k.table fd, a.send with
  | some _, some n =>
    let taken := data.bytes.take n
    .ok (taken.length, (k.modify fd fun f => { f with sent := f.sent ++ taken }).record
      (.send fd data taken.length))
  | _, _ => .ok (-1, k.record (.send fd data (-1)))⟩

def close (fd : Int) : Sys Unit := ⟨fun _ k => .ok ((), (k.release fd).record (.close fd))⟩

theorem accept_ok {k : Kernel} {a : Answers} (hf : k.table fd = some f)
    (hl : f.listening = true) (hg : k.grant a.accept = n) :
    (accept fd).run a k =
      .ok (n, (k.install n ⟨.stream, .tcp, f.localAddr, false, a.flags, []⟩).record
        (.accept fd n)) := by
  simp only [accept, hf, hl, if_true, hg]

theorem accept_cases (fd : Int) (a : Answers) (k : Kernel) :
    (accept fd).run a k = .ok (-1, k.record (.accept fd (-1))) ∨
      ∃ n f, 0 ≤ n ∧ k.table n = none ∧
        (accept fd).run a k = .ok (n, (k.install n f).record (.accept fd n)) := by
  cases hf : k.table fd with
  | none => exact .inl (by simp only [accept, hf])
  | some f =>
    cases hl : f.listening with
    | false =>
      left
      simp only [accept, hf, hl, Bool.false_eq_true, if_false, Kernel.install_neg]
    | true =>
      rcases k.grant_cases a.accept with hg | ⟨h₀, hfree⟩
      · exact .inl (accept_ok hf hl hg)
      · exact .inr ⟨_, _, h₀, hfree, accept_ok hf hl rfl⟩

end Sys

end Gortsp
