import RpnLang.Symbol
import RpnLang.Token

/-!
# The lexing automaton

States are numbers below 2^16. A transition is looked up first for the exact symbol class and
then under the state's fallback for every other class; ten states have transitions at all.
What happens to the pending lexeme when a transition lands on a state is that state's
disposition: the character joins it, is skipped, ends it (joining it or starting the next one),
counts a line, or is refused with one of four numbered errors (states 101 to 104).
-/

namespace RpnLang

/-- What a landing state does with the pending lexeme and the character that led to it. -/
inductive Disposition where
  /-- The character joins the lexeme and more are expected. -/
  | keep
  /-- A blank is consumed and the lexeme is dropped. -/
  | skip
  /-- The lexeme is finished without the character, which then starts the next lexeme. -/
  | retract
  /-- The lexeme is finished with the character. -/
  | finish
  /-- A line ends. -/
  | newline
  /-- The character is refused. -/
  | reject
  deriving DecidableEq, Repr, Inhabited

namespace Automaton

/-- The start state, where every lexeme begins. -/
def start : Nat := 0

/-- Transitions taken on one exact symbol class. -/
def exact (q : Nat) (k : SymbolClass) : Option Nat :=
  match q with
  | 0 =>
    match k with
    | .letter => some 1
    | .newline => some 5
    | .blank => some 0
    | .digit => some 10
    | .single c =>
      if c ∈ ['+', '-', '*', '/', '^', '(', ')', '{', '}', ';', ',', ':'] then some 4
      else if c ∈ ['=', '<', '>'] then some 6
      else if c = '!' then some 9
      else none
    | .unknown => none
  | 1 =>
    match k with
    | .letter | .digit => some 1
    | _ => none
  | 6 | 9 =>
    match k with
    | .single c => if c = '=' then some 8 else none
    | _ => none
  | 10 =>
    match k with
    | .digit => some 10
    | .single c => if c = '.' then some 11 else none
    | _ => none
  | 11 =>
    match k with
    | .digit => some 14
    | _ => none
  | 13 =>
    match k with
    | .digit => some 13
    | _ => none
  | 14 =>
    match k with
    | .digit => some 14
    | .single c => if c = 'E' then some 15 else none
    | _ => none
  | 15 =>
    match k with
    | .single c => if c = '-' then some 17 else none
    | .digit => some 13
    | _ => none
  | 17 =>
    match k with
    | .digit => some 13
    | _ => none
  | _ => none

/-- The transition a state takes on every class it has no exact transition for. -/
def fallback : Nat → Option Nat
  | 0 => some 101
  | 1 => some 3
  | 6 => some 7
  | 9 => some 102
  | 10 => some 12
  | 11 => some 103
  | 14 => some 16
  | 15 => some 104
  | 17 => some 104
  | 13 => some 18
  | _ => none

/-- The state reached from `s` on a character of class `k`: the exact transition if there is
one, else the fallback. -/
def next? (s : Nat) (k : SymbolClass) : Option Nat :=
  (exact s k).or (fallback s)

/-- The disposition of a landing state. -/
def disposition : Nat → Disposition
  | 0 => .skip
  | 3 | 7 | 12 | 16 | 18 => .retract
  | 4 | 8 => .finish
  | 5 => .newline
  | 101 | 102 | 103 | 104 => .reject
  | _ => .keep

/-- The token kind of a lexeme finished in a state, when no reserved spelling decides it. -/
def stateKind? : Nat → Option TokenKind
  | 3 => some .ident
  | 12 => some .int
  | 16 => some .float
  | 18 => some .exp
  | _ => none

end Automaton

end RpnLang
