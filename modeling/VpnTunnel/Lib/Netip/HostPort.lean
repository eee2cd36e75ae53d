import Mathlib.Data.List.TakeWhile
import VpnTunnel.Lib.Netip.Basic

namespace Net

open Netip

variable {s host port before : ByteString}

theorem takeWhile_append {c : UInt8} {t : ByteString} (h : c ∉ s) :
    (s ++ c :: t).takeWhile (· ≠ c) = s ∧ (s ++ c :: t).dropWhile (· ≠ c) = c :: t := by
  have hw : ∀ x ∈ s, decide (x ≠ c) := by
    intro x hx
    simpa using fun he : x = c => h (he ▸ hx)
  rw [List.takeWhile_append_of_pos hw, List.dropWhile_append_of_pos hw]
  simp

theorem splitPort_append (h : colon ∉ port) :
    splitPort (before ++ colon :: port) = some (before, port) := by
  have hr : (before ++ colon :: port).reverse = port.reverse ++ colon :: before.reverse := by simp
  have ⟨ht, hd⟩ := takeWhile_append (t := before.reverse) (mt List.mem_reverse.mp h)
  rw [splitPort, if_pos (by simp), hr, ht, hd]
  simp

theorem splitPort_elim (h : splitPort s = some (before, port)) :
    s = before ++ colon :: port ∧ colon ∉ port := by
  by_cases hc : colon ∈ s
  case neg => simp [splitPort, hc] at h
  case pos =>
    have ⟨l, l', hs, hl⟩ := List.eq_append_cons_of_mem (List.mem_reverse.mpr hc)
    have hs : s = l'.reverse ++ colon :: l.reverse := by
      rw [← List.reverse_reverse s, hs]
      simp
    have hl := mt List.mem_reverse.mp hl
    rw [hs, splitPort_append hl] at h
    cases h
    exact ⟨hs, hl⟩

def NoBrackets (s : ByteString) : Prop :=
  lbracket ∉ s ∧ rbracket ∉ s

instance : Decidable (NoBrackets s) :=
  inferInstanceAs (Decidable (_ ∧ _))

-- The texts that can be split: with the host in brackets, or with a host that has no colon.
inductive IsHostPort (host port : ByteString) : ByteString → Prop
  | bracketed : IsHostPort host port (lbracket :: host ++ [rbracket] ++ colon :: port)
  | plain : colon ∉ host → IsHostPort host port (host ++ colon :: port)

theorem splitHostPort_bracketed (hc : colon ∉ port) (hh : NoBrackets host) (hp : NoBrackets port) :
    splitHostPort (lbracket :: host ++ [rbracket] ++ colon :: port) = .ok (host, port) := by
  have hr : rbracket ∉ lbracket :: host := by simpa using ⟨by decide, hh.right⟩
  have ⟨ht, _⟩ := takeWhile_append (t := colon :: port) hr
  have hs : lbracket :: host ++ [rbracket] ++ colon :: port =
    lbracket :: host ++ rbracket :: colon :: port := by simp
  rw [splitHostPort, splitPort_append hc]
  simp only [hs, ht]
  have hl : lbracket ≠ rbracket ∧ lbracket ≠ colon := by decide
  have hr : rbracket ≠ colon := by decide
  simp [hh.left, hh.right, hp.left, hp.right, hl, hr]

theorem splitHostPort_plain (hc : colon ∉ port) (hh : NoBrackets host) (hp : NoBrackets port)
    (hn : colon ∉ host) : splitHostPort (host ++ colon :: port) = .ok (host, port) := by
  have hl : lbracket ≠ colon := by decide
  have hr : rbracket ≠ colon := by decide
  have hd : (host ++ colon :: port).head? ≠ some lbracket := by
    intro h
    have := List.mem_of_mem_head? h
    simp [hh.left, hp.left, hl] at this
  rw [splitHostPort, splitPort_append hc]
  simp only [if_neg hd]
  simp [hn, hh.left, hh.right, hp.left, hp.right, hl, hr]

theorem bracketed_elim (hs : s = before ++ colon :: port) (hb : s.head? = some lbracket)
    (hi : s.takeWhile (· ≠ rbracket) ++ [rbracket] = before) (hl : lbracket ∉ s.drop 1)
    (hr : rbracket ∉ s.drop ((s.takeWhile (· ≠ rbracket)).length + 1)) (hc : colon ∉ port) :
    IsHostPort ((s.takeWhile (· ≠ rbracket)).drop 1) port s ∧ colon ∉ port ∧
      NoBrackets ((s.takeWhile (· ≠ rbracket)).drop 1) ∧ NoBrackets port := by
  have hn : rbracket ∉ s.takeWhile (· ≠ rbracket) := fun h => by simpa using List.mem_takeWhile_imp h
  generalize s.takeWhile (· ≠ rbracket) = inner at *
  subst hi
  cases inner
  case nil => simp [hs] at hb; exact absurd hb (by decide)
  case cons c inner =>
    have hb : c = lbracket := by simpa [hs] using hb
    subst hb
    subst hs
    simp at hl hr hn
    exact ⟨.bracketed, hc, ⟨hl.left, hn.right⟩, hl.right.right.right, hr.right⟩

theorem splitHostPort_elim (h : splitHostPort s = .ok (host, port)) :
    IsHostPort host port s ∧ colon ∉ port ∧ NoBrackets host ∧ NoBrackets port := by
  simp only [splitHostPort] at h
  cases hp : splitPort s <;> simp only [hp, reduceCtorEq] at h
  case some r =>
    rcases r with ⟨before, port'⟩
    have ⟨hs, hc⟩ := splitPort_elim hp
    split at h
    case isTrue hb =>
      split at h <;> try contradiction
      split at h <;> try contradiction
      split at h
      case isTrue => split at h <;> contradiction
      case isFalse hi =>
        split at h <;> try contradiction
        case isFalse hl =>
          split at h <;> try contradiction
          case isFalse hr =>
            cases h
            exact bracketed_elim hs hb (not_not.mp hi) hl hr hc
    case isFalse =>
      split at h <;> try contradiction
      case isFalse hn =>
        split at h <;> try contradiction
        case isFalse hl =>
          split at h <;> try contradiction
          case isFalse hr =>
            cases h
            subst hs
            simp only [List.mem_append, List.mem_cons, not_or] at hl hr
            exact ⟨.plain hn, hc, ⟨hl.left, hr.left⟩, hl.right.right, hr.right.right⟩

-- The address of a host with a colon is only split where it was joined.
theorem splitHostPort_joinHostPort (hc : colon ∉ port) (hp : NoBrackets port)
    (hh : NoBrackets host) : splitHostPort (joinHostPort host port) = .ok (host, port) := by
  simp only [joinHostPort]
  split
  case isTrue => simpa using splitHostPort_bracketed hc hh hp
  case isFalse hn => simpa using splitHostPort_plain hc hh hp hn

theorem noBrackets_of_joinHostPort {host' port' : ByteString} (hn : colon ∈ host)
    (hc : colon ∉ port) (h : splitHostPort (joinHostPort host port) = .ok (host', port')) :
    NoBrackets host := by
  have ⟨hi, hc', hh, _⟩ := splitHostPort_elim h
  generalize hs : joinHostPort host port = s at hi
  have hs : s = (lbracket :: host ++ [rbracket]) ++ colon :: port := by simp [← hs, joinHostPort, hn]
  cases hi
  case bracketed =>
    have := congrArg splitPort hs
    rw [splitPort_append hc, splitPort_append hc'] at this
    simp only [List.cons_append, Option.some.injEq, Prod.mk.injEq, List.cons.injEq, true_and,
      List.append_cancel_right_eq] at this
    exact this.left ▸ hh
  case plain =>
    have := congrArg splitPort hs
    rw [splitPort_append hc, splitPort_append hc'] at this
    simp only [Option.some.injEq, Prod.mk.injEq] at this
    simp [NoBrackets, this.left] at hh

end Net
