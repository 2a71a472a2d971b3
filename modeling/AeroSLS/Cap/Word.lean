import Mathlib.Algebra.Group.Nat.Defs
import Mathlib.Tactic.Common

namespace AeroSLS.Cap

inductive CapType
  | none
  | mem
  | chanR
  | chanW
  | tramp
  | dev
  | io
  | irq
  deriving DecidableEq, Repr

inductive CapState
  | valid
  | inTransit
  | revoked
  deriving DecidableEq, Repr

structure CapWord where
  ty : CapType
  state : CapState
  obj : ℕ
  perms : ℕ
  off : ℕ
  len : ℕ
  rsvd : ℕ
  deriving DecidableEq, Repr

instance : Zero CapWord := ⟨⟨.none, .valid, 0, 0, 0, 0, 0⟩⟩

def capPermR : ℕ := 1
def capPermW : ℕ := 2
def capPermX : ℕ := 4
def capPermMap : ℕ := 8
def capPermSend : ℕ := 1
def capPermRecv : ℕ := 2
def capPermBind : ℕ := 1

def capWordMake (ty : CapType) (obj perms off len : ℕ) : CapWord :=
  { ty, state := .valid, obj := obj % 2 ^ 17, perms := perms % 2 ^ 8, off := off % 2 ^ 16,
    len := len % 2 ^ 12, rsvd := 0 }

def capWordValid (w : CapWord) : Bool :=
  w.ty != .none && w.state == .valid && w.rsvd == 0

def capWordStampRevoked (w : CapWord) : CapWord := { w with state := .revoked }

def CapWord.hasPerm (w : CapWord) (p : ℕ) : Bool := w.perms &&& p != 0

/-- A handle to send on: the write end with SEND, or the read end with RECV, on which a server
replies. -/
def CapWord.sendable (w : CapWord) : Bool :=
  capWordValid w && (w.ty == .chanW && w.hasPerm capPermSend ||
    w.ty == .chanR && w.hasPerm capPermRecv)

def CapWord.receivable (w : CapWord) : Bool :=
  capWordValid w && w.ty == .chanR && w.hasPerm capPermRecv

/-- The types whose OBJ field is an object id, not a vector number, a port base or a trampoline
index. -/
def CapType.namesObject : CapType → Bool
  | .mem | .chanR | .chanW | .dev => true
  | .none | .tramp | .io | .irq => false

/-- The object a usable capability word gives access to. -/
def CapWord.names (w : CapWord) : Option ℕ :=
  if capWordValid w && w.ty.namesObject then some w.obj else none

@[simp] lemma names_zero : CapWord.names 0 = none := rfl

lemma names_eq_some : w.names = some o ↔ capWordValid w ∧ w.ty.namesObject ∧ w.obj = o := by
  unfold CapWord.names
  split <;> simp_all

@[simp] lemma names_stamp (w : CapWord) : (capWordStampRevoked w).names = none := by
  simp [CapWord.names, capWordValid, capWordStampRevoked]

end AeroSLS.Cap
