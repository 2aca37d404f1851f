/-
  SysnetLinux.Connmark

  The package `connmark`: the rules that mirror packet marks through conntrack, and
  `Manager.Apply` and `Manager.Rollback` as programs over an nftables connection.

  A connection queues messages; `Flush` sends those queued since the last one, so a
  flush is one call with the whole batch.  The field `applied` of the manager is only
  ever written, and is left out.
-/

import SysnetLinux.Lib.Stage

namespace SysnetLinux.Connmark

open CallProg CallProg.Prog

/-! ## Marks -/

structure Mark where
  value : BitVec 32
  mask : BitVec 32
  deriving DecidableEq

def marksOverlap (a b : Mark) : Bool :=
  let common := a.mask &&& b.mask
  (a.value &&& common) == (b.value &&& common)

/-- Why `Apply` or `Rollback` fails; `E` are the errors of the connection. -/
inductive Error (E : Type) where
  | unavailable
  | zeroMask
  | overlap
  | list (e : E)
  | delete (e : E)
  | apply (e : E)
  deriving DecidableEq

/-- The text an error of the package starts with. -/
def Error.message {E : Type} : Error E → String
  | unavailable => "connmark: nftables connection is unavailable"
  | zeroMask => "connmark: mark mask must be non-zero"
  | overlap => "connmark: mark selectors overlap"
  | list _ => "connmark: list nftables tables: "
  | delete _ => "connmark: delete nftables table: "
  | apply _ => "connmark: apply nftables rules: "

/-- The first loop of `normalizeMarks`. -/
def scanMarks {E : Type} : List Mark → List Mark → Except (Error E) (List Mark)
  | out, [] => .ok out
  | out, mark :: rest =>
    if mark.mask = 0 then .error .zeroMask
    else scanMarks (if mark ∈ out then out else out ++ [mark]) rest

/-- Whether a mark of the list overlaps a later one. -/
def someOverlap : List Mark → Bool
  | [] => false
  | a :: rest => rest.any (marksOverlap a) || someOverlap rest

def normalizeMarks {E : Type} (marks : List Mark) : Except (Error E) (List Mark) :=
  match scanMarks [] marks with
  | .error e => .error e
  | .ok out => if someOverlap out then .error .overlap else .ok out

/-! ## Rules -/

/-- The mark a packet carries, or the one of its connection. -/
inductive MarkKey where
  | metaMark
  | ctMark
  deriving DecidableEq

/-- The expressions of a rule, on register 1. -/
inductive Expr where
  | load (key : MarkKey)
  | bitwise (mask xor : BitVec 32)
  | cmpEq (data : BitVec 32)
  | immediate (data : BitVec 32)
  | store (key : MarkKey)
  deriving DecidableEq

def matchMarkExprs (key : MarkKey) (mark : Mark) : List Expr :=
  [.load key, .bitwise mark.mask 0, .cmpEq (mark.value &&& mark.mask)]

def setMarkExprs (key : MarkKey) (mark : BitVec 32) : List Expr := [.immediate mark, .store key]

def saveMarkExprs (mark : Mark) : List Expr :=
  matchMarkExprs .metaMark mark ++ setMarkExprs .ctMark mark.value

def restoreMarkExprs (mark : Mark) : List Expr :=
  matchMarkExprs .ctMark mark ++ setMarkExprs .metaMark mark.value

/-! ## The connection -/

inductive TableFamily where
  | inet
  | other (n : Nat)
  deriving DecidableEq

structure Table where
  name : String
  family : TableFamily
  deriving DecidableEq

inductive Hook where
  | output
  | prerouting
  deriving DecidableEq

inductive Message where
  | addTable (table : Table)
  | delTable (table : Table)
  | addChain (table : Table) (name : String) (hook : Hook)
  | addRule (table : Table) (chain : String) (exprs : List Expr)
  deriving DecidableEq

inductive NftCall where
  | listTablesOfFamily (family : TableFamily)
  | flush (batch : List Message)
  deriving DecidableEq

def NftReply : NftCall → Type
  | .listTablesOfFamily _ => List Table
  | .flush _ => Unit

abbrev NftProg (E α : Type) := Prog NftCall NftReply E α

def connmarkTable : Table := ⟨"sysnet_linux_connmark", .inet⟩

def installBatch (marks : List Mark) : List Message :=
  [.addTable connmarkTable, .addChain connmarkTable "output" .output,
    .addChain connmarkTable "prerouting" .prerouting] ++
  marks.flatMap fun mark =>
    [.addRule connmarkTable "output" (saveMarkExprs mark),
      .addRule connmarkTable "prerouting" (restoreMarkExprs mark)]

/-! ## The manager -/

/-- A `Manager`, by whether it has a connection. -/
structure Manager where
  conn : Bool
  deriving DecidableEq

namespace Manager

variable {E : Type} (m : Manager)

/-- `rollbackLocked`; the error it returns. -/
def rollback : NftProg E (Option (Error E)) :=
  if !m.conn then .ret none
  else .call (.listTablesOfFamily .inet) fun
    | .error e => .ret (some (.list e))
    | .ok (tables : List Table) =>
      if connmarkTable ∈ tables then
        .call (.flush [.delTable connmarkTable]) fun
          | .error e => .ret (some (.delete e))
          | .ok _ => .ret none
      else .ret none

/-- `Apply`; the error it returns. -/
def apply (config : List Mark) : NftProg E (Option (Error E)) :=
  if !m.conn then .ret (some .unavailable)
  else match normalizeMarks (E := E) config with
    | .error e => .ret (some e)
    | .ok marks =>
      m.rollback.bind fun
        | some e => .ret (some e)
        | none =>
          if marks = [] then .ret none
          else .call (.flush (installBatch marks)) fun
            | .error e => m.rollback.bind fun _ => .ret (some (.apply e))
            | .ok _ => .ret none

end Manager

end SysnetLinux.Connmark
