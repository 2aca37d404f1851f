/-
  SysnetLinux.Rules.Compile

  Process rules (`rules.go`): `compileRule` turns the text of a rule into predicates on
  processes and on socket owners.

  Regular expressions, the account databases and `/proc` are read through `Host`.  Texts are
  lists of characters; `filepath.Match` is the one of `Glob`, on their bytes.
-/

import Mathlib.Algebra.Group.Nat.Defs
import Mathlib.Algebra.Group.Int.Defs
import SysnetLinux.Lib.Glob
import SysnetLinux.Strings

namespace SysnetLinux.Rules

open Strings

/-! ## Rules and processes -/

/-- `sysnet.Rule.Type`. -/
inductive RuleType where
  | comm
  | cmd
  | exec
  | pid
  | user
  | uid
  | group
  | gid
  | other (name : String)
  deriving DecidableEq, Repr

/-- `sysnet.Rule`. -/
structure Rule where
  type : RuleType
  rule : String
  deriving DecidableEq, Repr

/-- `pmark.ProcessKey`. -/
structure ProcessKey where
  tgid : BitVec 32
  deriving DecidableEq, Repr

/-- `pmark.ProcessInfo`. -/
structure ProcessInfo where
  key : ProcessKey
  comm : String
  cmdline : String
  exe : String
  deriving DecidableEq, Repr

/-- `sockowner.SocketOwner`. -/
structure SocketOwner where
  comm : String
  procName : String
  pids : List Int
  uid : Option (BitVec 32)
  gid : Option (BitVec 32)
  deriving DecidableEq, Repr

/-- The flags of `matcherProcessFields`, of which a rule sets at most one. -/
inductive MatcherField where
  | comm
  | cmdline
  | executable
  deriving DecidableEq, Repr

/-- What the compilation and the predicates ask the host. -/
structure Host where
  /-- `regexp.Compile`, with `MatchString` of the result. -/
  compileRegexp : String → Except String (String → Bool)
  /-- `pmark.ExactCommFromRegexp`. -/
  exactCommFromRegexp : String → Except String (Option String)
  /-- The `Uid` of `user.Lookup`. -/
  lookupUser : String → Except String String
  /-- The `Gid` of `user.LookupGroup`. -/
  lookupGroup : String → Except String String
  /-- The user and group IDs of `/proc/<pid>/status`. -/
  processStatusIDs : BitVec 32 → Option (BitVec 32 × BitVec 32)

/-- `compiledRule`. -/
structure CompiledRule where
  process : Option (ProcessInfo → Bool)
  owner : SocketOwner → Bool
  matcherFields : Option MatcherField

inductive CompileError where
  | regexp (message : String)
  | emptyExec
  | relativeExec (pattern : String)
  | badPattern
  | emptyNumeric
  | numeric (field : String)
  | lookup (message : String)
  | notSupported (type : String)
  deriving DecidableEq, Repr

/-! ## Executables -/

def separator : Char := '/'

/-- The bytes of a text. -/
def utf8 (s : List Char) : List UInt8 := s.flatMap String.utf8EncodeChar

/-- `filepath.Match`, without a result for a malformed pattern. -/
def filepathMatch (pattern name : List Char) : Option Bool :=
  (Glob.parse (utf8 pattern)).map fun chunks => Glob.accepts separator.toUInt8 chunks (utf8 name)

/-- `strings.ContainsAny(pattern, "*?[")`. -/
def hasMeta (pattern : List Char) : Bool := pattern.any fun c => c = '*' || c = '?' || c = '['

def isAbs (path : List Char) : Bool := [separator].isPrefixOf path

def compileExec (pattern : String) : Except CompileError (String → Bool) :=
  let p := pattern.toList
  if p = [] then .error .emptyExec
  else if ".".toList.isPrefixOf p &&
      (p == ".".toList || "./".toList.isPrefixOf p || "../".toList.isPrefixOf p) then
    .error (.relativeExec pattern)
  else if p.contains separator && !isAbs p then .error (.relativeExec pattern)
  else if hasMeta p then
    match filepathMatch p p with
    | none => .error .badPattern
    | some _ => .ok fun exe => (filepathMatch p exe.toList).getD false
  else if !p.contains separator then .ok fun exe => p.isSuffixOf exe.toList
  else .ok fun exe => exe.toList == p

/-! ## Numbers -/

/-- `strconv.ParseUint(field, 10, 32)`. -/
def parseUint32 (field : List Char) : Option (BitVec 32) :=
  if field ≠ [] ∧ field.all Char.isDigit ∧ Nat.ofDigitChars 10 field 0 < 2 ^ 32 then
    some (BitVec.ofNat 32 (Nat.ofDigitChars 10 field 0))
  else none

def parseUint32Fields : List (List Char) → Except CompileError (List (BitVec 32))
  | [] => .ok []
  | field :: fields =>
    match parseUint32 field with
    | none => .error (.numeric (String.ofList field))
    | some n =>
      match parseUint32Fields fields with
      | .error err => .error err
      | .ok values => .ok (n :: values)

def parseUint32List (value : String) : Except CompileError (List (BitVec 32)) :=
  let fields := fields value.toList
  if fields = [] then .error .emptyNumeric else parseUint32Fields fields

def pidToUint32 (pid : Int) : Option (BitVec 32) :=
  if 0 ≤ pid ∧ pid < 2 ^ 32 then some (BitVec.ofInt 32 pid) else none

/-! ## Rules -/

section

variable (host : Host)

/-- A rule on one text of the process, by a regular expression. -/
def compileRegexpRule (rule : String) (process : ProcessInfo → String)
    (owner : Option (SocketOwner → String)) (field : MatcherField) :
    Except CompileError CompiledRule :=
  match host.compileRegexp rule with
  | .error message => .error (.regexp message)
  | .ok re => .ok {
      process := some fun info => re (process info)
      owner := fun o => match owner with
        | some text => re (text o)
        | none => false
      matcherFields := some field }

def compileExecRule (rule : String) : Except CompileError CompiledRule :=
  match compileExec rule with
  | .error err => .error err
  | .ok match' => .ok {
      process := some fun info => match' info.exe
      owner := fun o => o.procName != "" && match' o.procName
      matcherFields := some .executable }

def compilePidRule (rule : String) : Except CompileError CompiledRule :=
  match parseUint32List rule with
  | .error err => .error err
  | .ok values => .ok {
      process := some fun info => values.contains info.key.tgid
      owner := fun o => o.pids.any fun pid =>
        match pidToUint32 pid with
        | some pid32 => values.contains pid32
        | none => false
      matcherFields := none }

/-- A rule on one of the IDs of the process status. -/
def compileStatusRule (rule : String) (pick : BitVec 32 × BitVec 32 → BitVec 32)
    (owner : SocketOwner → Option (BitVec 32)) : Except CompileError CompiledRule :=
  match parseUint32List rule with
  | .error err => .error err
  | .ok values => .ok {
      process := some fun info =>
        match host.processStatusIDs info.key.tgid with
        | some ids => values.contains (pick ids)
        | none => false
      owner := fun o => match owner o with
        | some id => values.contains id
        | none => false
      matcherFields := none }

def compileUidRule (rule : String) : Except CompileError CompiledRule :=
  compileStatusRule host rule Prod.fst SocketOwner.uid

def compileGidRule (rule : String) : Except CompileError CompiledRule :=
  compileStatusRule host rule Prod.snd SocketOwner.gid

def compileRule (rule : Rule) : Except CompileError CompiledRule :=
  match rule.type with
  | .comm => compileRegexpRule host rule.rule ProcessInfo.comm (some SocketOwner.comm) .comm
  | .cmd => compileRegexpRule host rule.rule ProcessInfo.cmdline none .cmdline
  | .exec => compileExecRule rule.rule
  | .pid => compilePidRule rule.rule
  | .user =>
    match host.lookupUser rule.rule with
    | .error message => .error (.lookup message)
    | .ok uid => compileUidRule host uid
  | .uid => compileUidRule host rule.rule
  | .group =>
    match host.lookupGroup rule.rule with
    | .error message => .error (.lookup message)
    | .ok gid => compileGidRule host gid
  | .gid => compileGidRule host rule.rule
  | .other name => .error (.notSupported name)

end

end SysnetLinux.Rules
