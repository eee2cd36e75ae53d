import VpnTunnel.Generatevpnconfig.Basic
import VpnTunnel.Lib.Batch
import VpnTunnel.Lib.Netip.AddrPort

namespace Generatevpnconfig

open ByteString
open Net Netip

-- The reasons for which an answer is not accepted.
inductive Invalid
  | required (label : String)
  | name (err : String)
  | address (err : ParseError)
  | cidr (err : PrefixError)
  | notSingleHost (bits want : Nat)
  | key
  | endpoint (err : AddrError)
  | emptyHost
  | portNotNumeric (port : ByteString) (err : Strconv.Error)
  | portOutOfRange (port : Int)
  | dns (err : ParseError)
  | listedCIDR (cidr : ByteString) (err : PrefixError)
  | noCIDR
  deriving DecidableEq

inductive PromptError
  | read (err : String)
  | unexpectedEOF (label : String)
  deriving DecidableEq

-- What is left to scan, and the error that the scanner ends with.
structure Input where
  lines : List ByteString
  err   : Option String
  deriving DecidableEq

def Input.ofText (text : ByteString) : Input where
  lines := (scan text).1
  err   := if (scan text).2 then some "bufio.Scanner: token too long" else none

-- The operator is asked until there is an answer that `read` accepts, or until the input ends.
def prompt (read : ByteString → Except Invalid α) (eof : Except PromptError α) (err : Option String) :
    List ByteString → Except PromptError (α × Input)
  | [] =>
    match err with
    | some err => .error (.read err)
    | none     => eof.map (·, ⟨[], none⟩)
  | line :: lines =>
    match read (trimSpace line) with
    | .ok a    => .ok (a, ⟨lines, err⟩)
    | .error _ => prompt read eof err lines

abbrev Prompt (α : Type) :=
  StateT Input (Except PromptError) α

def ask (read : ByteString → Except Invalid α) (eof : Except PromptError α) : Prompt α :=
  fun input => prompt read eof input.err input.lines

-- An answer that is not blank and passes the check.
def required (label : String) (validate : ByteString → Except Invalid Unit) (val : ByteString) :
    Except Invalid ByteString := do
  if val = [] then .error (.required label) else
    validate val
    return val

def promptRequired (label : String) (validate : ByteString → Except Invalid Unit) : Prompt ByteString :=
  ask (required label validate) (.error (.unexpectedEOF label))

-- A blank answer stands for the default.
def optional (default : ByteString) (validate : ByteString → Except Invalid Unit) (val : ByteString) :
    Except Invalid ByteString := do
  if val = [] then .ok default else
    validate val
    return val

def promptOptional (default : ByteString) (validate : ByteString → Except Invalid Unit) :
    Prompt ByteString :=
  ask (optional default validate) (.ok default)

def readName (val : ByteString) : Except Invalid Unit :=
  (validateName val.text).mapError .name

def promptPrefix : Prompt String := do
  return (← promptOptional [] readName).text

variable {read : ByteString → Except Invalid α} {eof : Except PromptError α} {err : Option String}
  {lines : List ByteString} {a : α} {b : β} {input rest : Input}

-- An answer is one of the lines, or it stands for the end of the input.
theorem prompt_elim (h : prompt read eof err lines = .ok (a, rest)) :
    rest.lines <:+ lines ∧ (eof = .ok a ∨ ∃ line ∈ lines, read (trimSpace line) = .ok a) := by
  induction lines
  case nil =>
    cases err
    case some => cases h
    case none =>
      cases eof
      case error => cases h
      case ok a' =>
        cases h
        exact ⟨List.suffix_rfl, .inl rfl⟩
  case cons line lines hi =>
    simp only [prompt] at h
    split at h
    case h_1 a' ha =>
      cases h
      exact ⟨List.suffix_cons _ _, .inr ⟨line, by simp, ha⟩⟩
    case h_2 =>
      have ⟨hs, h⟩ := hi h
      refine ⟨hs.trans (List.suffix_cons _ _), h.imp id ?_⟩
      intro ⟨line, hl, ha⟩
      exact ⟨line, by simp [hl], ha⟩

theorem Prompt.bind_eq_ok {x : Prompt α} {f : α → Prompt β} :
    (x >>= f) input = .ok (b, rest) ↔ ∃ a input', x input = .ok (a, input') ∧ f a input' = .ok (b, rest) := by
  refine Except.bind_eq_ok.trans ?_
  simp

-- A line that has been typed and accepted.
def Typed (validate : ByteString → Except Invalid Unit) (input : Input) (val : ByteString) : Prop :=
  (∃ line ∈ input.lines, val = trimSpace line) ∧ val ≠ [] ∧ validate val = .ok ()

section Elim

variable {validate : ByteString → Except Invalid Unit} {val default : ByteString} {label : String}

theorem promptRequired_elim (h : promptRequired label validate input = .ok (val, rest)) :
    rest.lines <:+ input.lines ∧ Typed validate input val := by
  have ⟨hs, h⟩ := prompt_elim h
  refine ⟨hs, ?_⟩
  cases h
  case inl h => cases h
  case inr h =>
    have ⟨line, hl, hr⟩ := h
    unfold required at hr
    split at hr
    case isTrue => cases hr
    case isFalse hn =>
      have ⟨_, hv, hr⟩ := Except.bind_eq_ok.mp hr
      cases hr
      exact ⟨⟨line, hl, rfl⟩, hn, hv⟩

theorem promptOptional_elim (h : promptOptional default validate input = .ok (val, rest)) :
    rest.lines <:+ input.lines ∧ (val = default ∨ Typed validate input val) := by
  have ⟨hs, h⟩ := prompt_elim h
  refine ⟨hs, ?_⟩
  cases h
  case inl h =>
    cases h
    exact .inl rfl
  case inr h =>
    have ⟨line, hl, hr⟩ := h
    unfold optional at hr
    split at hr
    case isTrue =>
      cases hr
      exact .inl rfl
    case isFalse hn =>
      have ⟨_, hv, hr⟩ := Except.bind_eq_ok.mp hr
      cases hr
      exact .inr ⟨⟨line, hl, rfl⟩, hn, hv⟩

end Elim

end Generatevpnconfig
