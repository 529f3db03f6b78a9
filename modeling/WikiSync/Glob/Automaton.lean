import WikiSync.Glob.Basic
import WikiSync.Text.Utf8

/-!
# Globs as automata over bytes

A glob is compiled into instructions over the bytes of a path: a byte, one byte other than `/`,
a run of such bytes, a run of any bytes, an optional `/`, a class of bytes, and a choice of
branches. The instructions are then laid out as the numbered states of an automaton, and a path
matches when, after its bytes are read one at a time, the state past the last is among the
states reached.

Each state either takes one byte that passes its test and moves to a later state, takes a run
of such bytes staying where it is, or moves on without taking a byte. Every move that takes no
byte goes to a higher-numbered state, so the states reachable without input are all found in
one pass in increasing order, and reading a path costs the number of its bytes times the number
of states, whatever the glob.
-/

namespace WikiSync.Glob

/-- One instruction of a compiled glob, over bytes. -/
inductive Atom where
  /-- Exactly this byte. -/
  | byte (b : UInt8)
  /-- One byte other than `/`. -/
  | notSlash
  /-- A run of bytes other than `/`. -/
  | notSlashRun
  /-- A run of any bytes. -/
  | anyRun
  /-- A `/`, or nothing. -/
  | optSlash
  /-- One byte in the ranges, or, when negated, outside all of them. -/
  | set (negated : Bool) (ranges : List (UInt8 × UInt8))
  /-- Any one of the branches. -/
  | choice (branches : List (List Atom))
  deriving Inhabited, Repr

/-- The separator byte. -/
def slash : UInt8 := 47

/-- The byte ranges of a class's character range, spelt out byte by byte. -/
def byteRanges (r : Char × Char) : List (UInt8 × UInt8) :=
  let lo := Utf8.encodeChar r.1
  let hi := Utf8.encodeChar r.2
  if r.1 == r.2 then lo.map fun b => (b, b)
  else
    match lo.getLast?, hi with
    | some l, h :: hs => (lo.dropLast.map fun b => (b, b)) ++ [(l, h)] ++ hs.map fun b => (b, b)
    | _, _ => []

mutual
/-- The instructions of one token. -/
def compileToken : Token → List Atom
  | .literal c => (Utf8.encodeChar c).map .byte
  | .any => [.notSlash]
  | .zeroOrMore => [.notSlashRun]
  | .recursivePrefix => [.choice [[.optSlash], [.anyRun, .byte slash]]]
  | .recursiveSuffix => [.byte slash, .anyRun]
  | .recursiveZeroOrMore => [.choice [[.byte slash], [.byte slash, .anyRun, .byte slash]]]
  | .cls negated ranges => [.set negated (ranges.flatMap byteRanges)]
  | .alternates branches =>
    let parts := (compileBranches branches).filter fun b => !b.isEmpty
    if parts.isEmpty then [] else [.choice parts]

/-- The instructions of a sequence of tokens. -/
def compileTokens : List Token → List Atom
  | [] => []
  | t :: ts => compileToken t ++ compileTokens ts

/-- The instructions of each branch of a group. -/
def compileBranches : List (List Token) → List (List Atom)
  | [] => []
  | b :: bs => compileTokens b :: compileBranches bs
end

/-- The instructions of a whole glob: `**` alone takes any path. -/
def compile (ts : List Token) : List Atom :=
  match ts with
  | [.recursivePrefix] => [.anyRun]
  | _ => compileTokens ts

mutual
/-- The size of an instruction, counting the instructions inside its branches. -/
def Atom.weight : Atom → Nat
  | .choice bs => 1 + branchesWeight bs
  | _ => 1

/-- The size of a sequence of instructions. -/
def atomsWeight : List Atom → Nat
  | [] => 0
  | a :: as => a.weight + atomsWeight as

/-- The size of the branches of a choice. -/
def branchesWeight : List (List Atom) → Nat
  | [] => 0
  | b :: bs => atomsWeight b + branchesWeight bs
end

/-- Whether a byte lies in some range. -/
def inRanges (b : UInt8) (ranges : List (UInt8 × UInt8)) : Bool :=
  ranges.any fun (lo, hi) => lo ≤ b && b ≤ hi

/-- What one byte must be to be taken. -/
inductive ByteTest where
  /-- Exactly this byte. -/
  | byte (b : UInt8)
  /-- Any byte other than `/`. -/
  | notSlash
  /-- Any byte. -/
  | anyByte
  /-- A byte in the ranges, or, when negated, outside all of them. -/
  | set (negated : Bool) (ranges : List (UInt8 × UInt8))
  deriving Inhabited, Repr

/-- Whether a byte passes a test. -/
def ByteTest.passes : ByteTest → UInt8 → Bool
  | .byte b, c => b == c
  | .notSlash, c => c != slash
  | .anyByte, _ => true
  | .set negated ranges, c => inRanges c ranges != negated

/-- One state of an automaton; the targets are the numbers of other states. -/
inductive State where
  /-- Take one byte that passes the test and move to `next`; when `optional`, also move there
  without taking a byte. -/
  | take (test : ByteTest) (next : Nat) (optional : Bool)
  /-- Take any number of bytes that pass the test, staying here, and move to `next` without
  taking a byte. -/
  | loop (test : ByteTest) (next : Nat)
  /-- Move to any of the targets without taking a byte. -/
  | fork (targets : List Nat)
  deriving Inhabited, Repr

/-- Where each branch of a choice starts: at its first state, numbered from `base`, or, for an
empty branch, at `cont`, the state after the choice. -/
def branchEntries : List (List Atom) → Nat → Nat → List Nat
  | [], _, _ => []
  | b :: bs, base, cont =>
    (if b.isEmpty then cont else base) :: branchEntries bs (base + atomsWeight b) cont

mutual
/-- The states of one instruction, numbered from `base`, moving on to `next`. An instruction
takes as many states as its weight. -/
def layoutAtom : Atom → Nat → Nat → List State
  | .byte b, _, next => [.take (.byte b) next false]
  | .notSlash, _, next => [.take .notSlash next false]
  | .notSlashRun, _, next => [.loop .notSlash next]
  | .anyRun, _, next => [.loop .anyByte next]
  | .optSlash, _, next => [.take (.byte slash) next true]
  | .set negated ranges, _, next => [.take (.set negated ranges) next false]
  | .choice bs, base, next =>
    .fork (branchEntries bs (base + 1) next) :: layoutBranches bs (base + 1) next

/-- The states of a sequence of instructions, numbered from `base`; the last moves on to
`cont`. -/
def layoutSeq : List Atom → Nat → Nat → List State
  | [], _, _ => []
  | a :: rest, base, cont =>
    let next := if rest.isEmpty then cont else base + a.weight
    layoutAtom a base next ++ layoutSeq rest (base + a.weight) cont

/-- The states of the branches of a choice, one after another from `base`, each moving on to
`cont` when done. -/
def layoutBranches : List (List Atom) → Nat → Nat → List State
  | [], _, _ => []
  | b :: bs, base, cont => layoutSeq b base cont ++ layoutBranches bs (base + atomsWeight b) cont
end

/-- An automaton over bytes: its states, numbered from zero. It starts in state zero and
accepts in the state numbered one past the last. -/
structure Automaton where
  /-- The states, by number. -/
  states : Array State
  deriving Inhabited

namespace Automaton

/-- The automaton of a sequence of instructions. -/
def ofAtoms (as : List Atom) : Automaton := ⟨(layoutSeq as 0 (atomsWeight as)).toArray⟩

/-- The number of the accepting state. -/
def final (m : Automaton) : Nat := m.states.size

/-- No state reached: a flag for every state and the accepting one. -/
def none (m : Automaton) : Array Bool := Array.replicate (m.final + 1) false

/-- Add the states reachable without taking a byte. Those moves lead to higher-numbered
states, so one pass in increasing order reaches them all. -/
def close (m : Automaton) (reached : Array Bool) : Array Bool :=
  (List.range m.final).foldl (fun r i =>
    if r.getD i false then
      match m.states[i]? with
      | some (.fork ts) => ts.foldl (fun r t => r.setIfInBounds t true) r
      | some (.loop _ next) => r.setIfInBounds next true
      | some (.take _ next true) => r.setIfInBounds next true
      | _ => r
    else r) reached

/-- The states reached from some states by taking one byte, and then moving without taking
one. -/
def step (m : Automaton) (reached : Array Bool) (b : UInt8) : Array Bool :=
  m.close <| (List.range m.final).foldl (fun r i =>
    if reached.getD i false then
      match m.states[i]? with
      | some (.take t next _) => if t.passes b then r.setIfInBounds next true else r
      | some (.loop t _) => if t.passes b then r.setIfInBounds i true else r
      | _ => r
    else r) m.none

/-- The states reached before any byte is read. -/
def start (m : Automaton) : Array Bool := m.close (m.none.setIfInBounds 0 true)

/-- Whether the automaton accepts all of the bytes. -/
def accepts (m : Automaton) (bs : List UInt8) : Bool :=
  (bs.foldl m.step m.start).getD m.final false

end Automaton

end WikiSync.Glob
