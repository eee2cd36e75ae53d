import VpnTunnel.Application.Proxy.Copy.Basic

namespace Application.Proxy.Copy

namespace Phase

-- What has been read and not been written yet.
def hand : Phase → List UInt8
  | write chunk => chunk
  | _           => []

-- `io.Copy` has returned.
def ended : Phase → Bool
  | report | halfClose | done => true
  | _                         => false

end Phase

inductive Dir.Step (srcClosed dstClosed dstTCP : Bool) (d : Dir) : Dir.Event → Dir → Prop
  | send {n : Nat} : (0 < n) → (n ≤ d.unsent.length) → Step srcClosed dstClosed dstTCP d (.send n)
    { d with unsent := d.unsent.drop n, buffered := d.buffered ++ d.unsent.take n }
  | eof : (d.unsent = []) → Step srcClosed dstClosed dstTCP d .eof { d with eof := true }
  | ahead {n : Nat} : (d.phase = .read) → (0 < n) → (n ≤ d.ahead.length) →
    Step srcClosed dstClosed dstTCP d (.read n)
      { d with ahead := d.ahead.drop n, phase := .write (d.ahead.take n) }
  | buffered {n : Nat} : (d.phase = .read) → (d.ahead = []) → (srcClosed = false) → (0 < n) →
    (n ≤ d.buffered.length) → Step srcClosed dstClosed dstTCP d (.read n)
      { d with buffered := d.buffered.drop n, phase := .write (d.buffered.take n) }
  | readEnd : (d.phase = .read) → (d.ends srcClosed) →
    Step srcClosed dstClosed dstTCP d .readEnd { d with phase := .report }
  | fail {chunk} : (d.phase = .write chunk) → (dstClosed = true ∨ d.writeClosed = true) →
    Step srcClosed dstClosed dstTCP d .write { d with phase := .report }
  | write {chunk} : (d.phase = .write chunk) → (dstClosed = false) → (d.writeClosed = false) →
    Step srcClosed dstClosed dstTCP d .write
      { d with
        phase     := .read
        copied    := d.copied + chunk.length
        delivered := d.delivered ++ chunk }
  | report : (d.phase = .report) →
    Step srcClosed dstClosed dstTCP d .report { d with phase := .halfClose, ch := some d.copied }
  | halfClose : (d.phase = .halfClose) → Step srcClosed dstClosed dstTCP d .halfClose
      { d with phase := .done, writeClosed := d.writeClosed || dstTCP }

inductive Step (p : Side → Peer) (s : State) : Event → State → Prop
  | dir {x e d} : Dir.Step (s.closed x) (s.closed x.other) (p x.other).tcp (s.dir x) e d →
    Step p s (.dir x e) ((s.setDir x d).afterDir p x e)
  | recvIn {n} : (s.main = .recvIn) → ((s.dir .client).ch = some n) →
    Step p s .recv { s.setDir .client { s.dir .client with ch := none } with main := .recvOut n }
  | recvOut {m n} : (s.main = .recvOut m) → ((s.dir .upstream).ch = some n) →
    Step p s .recv { s.setDir .upstream { s.dir .upstream with ch := none } with main := .closeClient m n }
  | closeClient {m n} : (s.main = .closeClient m n) →
    Step p s .close { s.close .client with main := .closeUpstream m n }
  | closeUpstream {m n} : (s.main = .closeUpstream m n) →
    Step p s .close { s.close .upstream with main := .done m n }

variable {p : Side → Peer} {s s₁ s₂ : State} {e : Event} {es : List Event} {x : Side} {d d₁ d₂ : Dir}
  {srcClosed dstClosed dstTCP : Bool}

theorem Dir.Step.of_read {n : Nat} (hp : d₁.phase = .read) (h : d₁.read srcClosed n = some d₂) :
    Step srcClosed dstClosed dstTCP d₁ (.read n) d₂ := by
  unfold Dir.read at h
  split at h
  case isTrue =>
    simp only [Option.ite_none_right_eq_some, Option.some.injEq] at h
    exact h.right ▸ .ahead hp h.left.left h.left.right
  case isFalse ha =>
    simp only [Bool.not_eq_true', Option.ite_none_right_eq_some, Option.some.injEq] at h
    have ⟨⟨hs, hn, hl⟩, h⟩ := h
    exact h ▸ .buffered hp (not_not.mp ha) hs hn hl

theorem Dir.Step.of_step {e : Dir.Event} (h : d₁.step srcClosed dstClosed dstTCP e = some d₂) :
    Step srcClosed dstClosed dstTCP d₁ e d₂ := by
  unfold Dir.step at h
  split at h
  case h_1 =>
    simp only [Option.ite_none_right_eq_some, Option.some.injEq] at h
    exact h.right ▸ .send h.left.left h.left.right
  case h_2 =>
    simp only [Option.ite_none_right_eq_some, Option.some.injEq] at h
    exact h.right ▸ .eof h.left.left
  case h_3 hp => exact .of_read hp h
  case h_4 hp =>
    simp only [Option.ite_none_right_eq_some, Option.some.injEq] at h
    exact h.right ▸ .readEnd hp h.left
  case h_5 hp =>
    split at h
    case isTrue hc  => exact Option.some.inj h ▸ .fail hp (by simpa using hc)
    case isFalse hc =>
      simp only [Bool.or_eq_true, not_or, Bool.not_eq_true] at hc
      exact Option.some.inj h ▸ .write hp hc.left hc.right
  case h_6 hp => exact Option.some.inj h ▸ .report hp
  case h_7 hp => exact Option.some.inj h ▸ .halfClose hp
  case h_8    => contradiction

theorem Step.of_step (h : step p s₁ e = some s₂) : Step p s₁ e s₂ := by
  cases e
  case dir x e =>
    simp only [step, Option.map_eq_some_iff] at h
    have ⟨d, hd, h⟩ := h
    exact h ▸ .dir (.of_step hd)
  case recv =>
    simp only [step, State.recv] at h
    split at h
    case h_1 hm =>
      have ⟨_, hn, h⟩ := Option.map_eq_some_iff.mp h
      exact h ▸ .recvIn hm hn
    case h_2 hm =>
      have ⟨_, hn, h⟩ := Option.map_eq_some_iff.mp h
      exact h ▸ .recvOut hm hn
    case h_3 => contradiction
  case close =>
    simp only [step, State.closeConn] at h
    split at h
    case h_1 hm => exact Option.some.inj h ▸ .closeClient hm
    case h_2 hm => exact Option.some.inj h ▸ .closeUpstream hm
    case h_3    => contradiction

theorem Side.other_injective : Function.Injective Side.other := by
  intro x y h
  cases x <;> cases y <;> first | rfl | contradiction

namespace State

@[simp]
theorem setDir_self : (s.setDir x d).dir x = d :=
  Function.update_self ..

@[simp]
theorem setDir_closed : (s.setDir x d).closed = s.closed :=
  rfl

@[simp]
theorem setDir_main : (s.setDir x d).main = s.main :=
  rfl

theorem setDir_of_ne {y : Side} (h : y ≠ x) : (s.setDir x d).dir y = s.dir y :=
  Function.update_of_ne h ..

@[simp]
theorem afterDir_dir {e : Dir.Event} : (s.afterDir p x e).dir = s.dir := by
  unfold afterDir
  split <;> rfl

@[simp]
theorem afterDir_main {e : Dir.Event} : (s.afterDir p x e).main = s.main := by
  unfold afterDir
  split <;> rfl

-- The connections that are closed after a step of a direction.
theorem afterDir_closed {e : Dir.Event} {y : Side} : (s.afterDir p x e).closed y ↔
    s.closed y ∨ (y = x.other ∧ e = .halfClose ∧ (p x.other).tcp = false) := by
  unfold afterDir
  split
  case isTrue h =>
    by_cases hy : y = x.other
    case pos => simp_all [close]
    case neg => simp [close, hy]
  case isFalse h => simp_all

theorem close_closed {y : Side} : (s.close x).closed y ↔ s.closed y ∨ y = x := by
  by_cases hy : y = x <;> simp [close, hy]

end State

-- No byte gets lost on the way.
structure Dir.Sound (p : Peer) (d : Dir) : Prop where
  stream   : d.delivered ++ d.phase.hand ++ d.ahead ++ d.buffered ++ d.unsent = p.stream
  eof      : d.eof → d.unsent = []
  writable : ¬d.phase.ended → d.writeClosed = false

namespace Dir.Sound

theorem init (p : Peer) : Sound p (.init p) where
  stream   := by simp [Dir.init, Phase.hand, Peer.stream]
  eof      := by simp [Dir.init]
  writable := by simp [Dir.init]

theorem step {q : Peer} {e : Dir.Event} (i : d₁.Sound q) (hd : ¬d₁.phase.ended → dstClosed = false)
    (h : Dir.Step srcClosed dstClosed dstTCP d₁ e d₂) : d₂.Sound q := by
  have hs := i.stream
  cases h
  case send n _ _ =>
    refine ⟨?_, ?_, i.writable⟩
    · simpa using hs
    · exact fun he => by simp [i.eof he]
  case eof hu => exact ⟨hs, fun _ => hu, i.writable⟩
  case ahead hp _ _ =>
    refine ⟨?_, i.eof, fun _ => i.writable (by simp [hp, Phase.ended])⟩
    rw [hp] at hs
    simpa [Phase.hand] using hs
  case buffered hp ha _ _ _ =>
    refine ⟨?_, i.eof, fun _ => i.writable (by simp [hp, Phase.ended])⟩
    rw [hp, ha] at hs
    simpa [Phase.hand, ha] using hs
  case readEnd hp _ =>
    refine ⟨?_, i.eof, by simp [Phase.ended]⟩
    rw [hp] at hs
    exact hs
  case fail hp hc =>
    have hn : ¬d₁.phase.ended := by simp [hp, Phase.ended]
    simp [hd hn, i.writable hn] at hc
  case write hp _ hw =>
    refine ⟨?_, i.eof, fun _ => hw⟩
    rw [hp] at hs
    simpa [Phase.hand] using hs
  case report hp =>
    refine ⟨?_, i.eof, by simp [Phase.ended]⟩
    rw [hp] at hs
    exact hs
  case halfClose hp =>
    refine ⟨?_, i.eof, by simp [Phase.ended]⟩
    rw [hp] at hs
    exact hs

end Dir.Sound

namespace Dir

theorem ends_iff : d.ends srcClosed ↔ d.ahead = [] ∧ (srcClosed ∨ d.buffered = [] ∧ d.eof) := by
  simp [ends]

theorem ends_mono {b : Bool} (h : d.ends srcClosed) (hb : srcClosed → b) : d.ends b := by
  rw [ends_iff] at *
  exact ⟨h.left, h.right.imp_left hb⟩

namespace Step

variable {e : Dir.Event}

theorem ended (h : Step srcClosed dstClosed dstTCP d₁ e d₂) (hp : d₁.phase.ended) : d₂.phase.ended := by
  cases h
  case send | eof => exact hp
  case ahead h _ _ | buffered h _ _ _ _ | fail h _ | write h _ _ => simp [h, Phase.ended] at hp
  case readEnd | report | halfClose => rfl

-- `io.Copy` only returns when there is nothing left that can be read.
theorem ends {q : Peer} (h : Step srcClosed dstClosed dstTCP d₁ e d₂) (i : d₁.Sound q)
    (hd : ¬d₁.phase.ended → dstClosed = false) (hs : d₁.phase.ended → d₁.ends srcClosed)
    (hp : d₂.phase.ended) : d₂.ends srcClosed := by
  cases h
  case send n hn hl =>
    have ⟨ha, hb⟩ := ends_iff.mp (hs hp)
    refine ends_iff.mpr ⟨ha, hb.imp_right fun he => ?_⟩
    simp [i.eof he.right] at hl
    omega
  case eof =>
    have ⟨ha, hb⟩ := ends_iff.mp (hs hp)
    exact ends_iff.mpr ⟨ha, hb.imp_right fun h => ⟨h.left, rfl⟩⟩
  case ahead | buffered | write => simp [Phase.ended] at hp
  case readEnd he => exact he
  case fail h hc =>
    have hn : ¬d₁.phase.ended := by simp [h, Phase.ended]
    simp [hd hn, i.writable hn] at hc
  case report h    => exact hs (by rw [h]; rfl)
  case halfClose h => exact hs (by rw [h]; rfl)

theorem ch (h : Step srcClosed dstClosed dstTCP d₁ e d₂) (hc : d₁.ch.isSome → d₁.phase.ended)
    (hs : d₂.ch.isSome) : d₂.phase.ended := by
  cases h
  case report => rfl
  case send h _      => exact hc hs
  case eof           => exact hc hs
  case readEnd h _   => rfl
  case fail          => rfl
  case halfClose     => rfl
  case ahead h _ _   => simpa [h, Phase.ended] using hc hs
  case buffered h _ _ _ _ => simpa [h, Phase.ended] using hc hs
  case write h _ _   => simpa [h, Phase.ended] using hc hs

end Step

end Dir

-- The directions that the goroutine of the tunnel has received a number of bytes from.
def Main.received : Main → Side → Bool
  | recvIn,    _         => false
  | recvOut _, .client   => true
  | recvOut _, .upstream => false
  | _,         _         => true

structure Consistent (p : Side → Peer) (s : State) : Prop where
  sound : ∀ x, (s.dir x).Sound (p x)
  dst   : ∀ x, s.closed x.other → (s.dir x).phase.ended
  src   : ∀ x, (s.dir x).phase.ended → (s.dir x).ends (s.closed x)
  ch    : ∀ x, (s.dir x).ch.isSome → (s.dir x).phase.ended
  main  : ∀ x, s.main.received x → (s.dir x).phase.ended

namespace Consistent

theorem init : Consistent p (.init p) where
  sound x := .init (p x)
  dst     := by simp [State.init]
  src     := by simp [State.init, Dir.init, Phase.ended]
  ch      := by simp [State.init, Dir.init]
  main    := by simp [State.init, Main.received]

theorem dir {e : Dir.Event} (c : Consistent p s)
    (h : Dir.Step (s.closed x) (s.closed x.other) (p x.other).tcp (s.dir x) e d) :
    Consistent p ((s.setDir x d).afterDir p x e) := by
  have hd : ¬(s.dir x).phase.ended → s.closed x.other = false := by
    simpa using mt (c.dst x)
  have hm (y : Side) (hy : (s.dir y).phase.ended) :
      (((s.setDir x d).afterDir p x e).dir y).phase.ended := by
    by_cases hx : y = x
    case pos => simpa [hx] using h.ended (hx ▸ hy)
    case neg => simpa [State.setDir_of_ne hx] using hy
  constructor
  case sound =>
    intro y
    by_cases hx : y = x
    case pos => simpa [hx] using (c.sound x).step hd h
    case neg => simpa [State.setDir_of_ne hx] using c.sound y
  case dst =>
    intro y hy
    cases State.afterDir_closed.mp hy
    case inl hy => exact hm y (c.dst y hy)
    case inr hy =>
      have ⟨ho, he, _⟩ := hy
      cases Side.other_injective ho
      subst he
      cases h
      simp [Phase.ended]
  case src =>
    intro y hy
    have hc (he : (((s.setDir x d).afterDir p x e).dir y).ends (s.closed y)) :
        (((s.setDir x d).afterDir p x e).dir y).ends (((s.setDir x d).afterDir p x e).closed y) :=
      Dir.ends_mono he fun hb => State.afterDir_closed.mpr (.inl hb)
    apply hc
    by_cases hx : y = x
    case pos =>
      subst hx
      simp only [State.afterDir_dir, State.setDir_self] at hy ⊢
      exact h.ends (c.sound y) hd (c.src y) hy
    case neg =>
      simp only [State.afterDir_dir, State.setDir_of_ne hx] at hy ⊢
      exact c.src y hy
  case ch =>
    intro y
    by_cases hx : y = x
    case pos => simpa [hx] using h.ch (c.ch x)
    case neg => simpa [State.setDir_of_ne hx] using c.ch y
  case main =>
    intro y hy
    exact hm y (c.main y (by simpa using hy))

-- Receiving from a channel leaves everything else in the directions as it is.
theorem recv {m : Main} (c : Consistent p s) (hc : (s.dir x).ch.isSome)
    (hm : ∀ y, m.received y → s.main.received y ∨ y = x) :
    Consistent p { s.setDir x { s.dir x with ch := none } with main := m } := by
  have hd (y : Side) : ∃ o, (s.setDir x { s.dir x with ch := none }).dir y = { s.dir y with ch := o } ∧
      (o.isSome → (s.dir y).ch.isSome) := by
    by_cases hx : y = x
    case pos => exact ⟨none, by simp [hx], by simp⟩
    case neg => exact ⟨_, State.setDir_of_ne hx, id⟩
  constructor
  case sound =>
    intro y
    have ⟨_, h, _⟩ := hd y
    exact h ▸ ⟨(c.sound y).stream, (c.sound y).eof, (c.sound y).writable⟩
  case dst =>
    intro y hy
    have ⟨_, h, _⟩ := hd y
    simpa only [h] using c.dst y hy
  case src =>
    intro y hy
    have ⟨_, h, _⟩ := hd y
    simp only [h] at hy ⊢
    exact c.src y hy
  case ch =>
    intro y hy
    have ⟨_, h, ho⟩ := hd y
    simp only [h] at hy ⊢
    exact c.ch y (ho hy)
  case main =>
    intro y hy
    have ⟨_, h, _⟩ := hd y
    simp only [h]
    cases hm y hy
    case inl hy => exact c.main y hy
    case inr hy => exact hy ▸ c.ch x hc

theorem close {m : Main} (c : Consistent p s) (hs : ∀ y, s.main.received y) :
    Consistent p { s.close x with main := m } where
  sound      := c.sound
  dst y _    := c.main y (hs y)
  src y hy   := Dir.ends_mono (c.src y hy) fun hb => State.close_closed.mpr (.inl hb)
  ch         := c.ch
  main y _   := c.main y (hs y)

theorem step (c : Consistent p s₁) (h : Step p s₁ e s₂) : Consistent p s₂ := by
  cases h
  case dir h => exact c.dir h
  case recvIn hm hc =>
    refine c.recv (by simp [hc]) fun y hy => .inr ?_
    cases y
    case client   => rfl
    case upstream => contradiction
  case recvOut hm hc =>
    refine c.recv (by simp [hc]) fun y _ => ?_
    cases y
    case client   => exact .inl (by rw [hm]; rfl)
    case upstream => exact .inr rfl
  case closeClient hm   => exact c.close fun y => by rw [hm]; rfl
  case closeUpstream hm => exact c.close fun y => by rw [hm]; rfl

end Consistent

theorem consistent (r : (system p).Reachable s) : Consistent p s :=
  r.invariant .init fun _ _ _ c h => c.step (.of_step h)

-- What is on its way from the source and has not been read.
def Dir.rest (d : Dir) : List UInt8 :=
  d.buffered ++ d.unsent

-- Nothing is on its way over a connection that has been closed.
def Kept (s : State) : Prop :=
  ∀ x, s.closed x → (s.dir x).rest = []

-- When the tunnel is done with one direction and its destination is not a `*net.TCPConn`, then there is
-- nothing left in the other direction that has not been read.
def NothingLeft (p : Side → Peer) (s : State) (e : Event) : Prop :=
  ∀ x, e = .dir x .halfClose → (p x.other).tcp = false → (s.dir x.other).rest = []

theorem Side.other_ne (x : Side) : x.other ≠ x := by
  cases x <;> simp [other]

-- Once its source has been closed, a direction does not get at the rest any more.
theorem Dir.Step.rest_eq {e : Dir.Event} (h : Step true dstClosed dstTCP d₁ e d₂) : d₂.rest = d₁.rest := by
  cases h
  case send     => simp [Dir.rest]
  case buffered => contradiction
  all_goals rfl

namespace Step

-- What was on its way over a closed connection stays there.
theorem rest_eq (h : Step p s₁ e s₂) (hc : s₁.closed x) :
    s₂.closed x ∧ (s₂.dir x).rest = (s₁.dir x).rest := by
  cases h
  case dir y e d h =>
    refine ⟨State.afterDir_closed.mpr (.inl hc), ?_⟩
    by_cases hx : x = y
    case pos =>
      subst hx
      rw [hc] at h
      simpa using h.rest_eq
    case neg => simp [State.setDir_of_ne hx]
  case recvIn =>
    refine ⟨hc, ?_⟩
    cases x
    case client   => simp [Dir.rest]
    case upstream => rw [State.setDir_of_ne (by simp)]
  case recvOut =>
    refine ⟨hc, ?_⟩
    cases x
    case client   => rw [State.setDir_of_ne (by simp)]
    case upstream => simp [Dir.rest]
  case closeClient | closeUpstream => exact ⟨State.close_closed.mpr (.inl hc), rfl⟩

theorem kept_of_kept (h : Step p s₁ e s₂) (k : Kept s₂) : Kept s₁ := by
  intro x hx
  have ⟨hc, hr⟩ := h.rest_eq hx
  exact hr ▸ k x hc

end Step

theorem Consistent.rest_eq_nil (c : Consistent p s) (hp : (s.dir x).phase.ended)
    (hc : s.closed x → (s.dir x).rest = []) : (s.dir x).rest = [] := by
  have ⟨_, he⟩ := Dir.ends_iff.mp (c.src x hp)
  cases he
  case inl h => exact hc h
  case inr h => rw [Dir.rest, h.left, (c.sound x).eof h.right, List.append_nil]

theorem Step.kept_iff (h : Step p s₁ e s₂) (c : Consistent p s₁) (k : Kept s₁) :
    Kept s₂ ↔ NothingLeft p s₁ e := by
  have hk (x : Side) (hx : s₁.closed x) : (s₂.dir x).rest = [] := (h.rest_eq hx).right.trans (k x hx)
  cases h
  case dir x e d h =>
    have ho : ((s₁.setDir x d).afterDir p x e).dir x.other = s₁.dir x.other := by
      rw [State.afterDir_dir, State.setDir_of_ne x.other_ne]
    constructor
    · intro k' y hy ht
      cases hy
      exact ho ▸ k' x.other (State.afterDir_closed.mpr (.inr ⟨rfl, rfl, ht⟩))
    · intro hn y hy
      cases State.afterDir_closed.mp hy
      case inl hy => exact hk y hy
      case inr hy =>
        have ⟨hy, he, ht⟩ := hy
        rw [hy, ho]
        exact hn x (he ▸ rfl) ht
  case recvIn | recvOut =>
    exact iff_of_true (fun y hy => hk y hy) (by simp [NothingLeft])
  case closeClient hm | closeUpstream hm =>
    refine iff_of_true (fun y _ => ?_) (by simp [NothingLeft])
    exact c.rest_eq_nil (c.main y (by rw [hm]; rfl)) (k y)

-- The peers decide about when they send; all other steps are the tunnel's.
def Event.ours : Event → Bool
  | dir _ (.send _) | dir _ .eof => false
  | _                            => true

-- The tunnel has done all that it can do without the peers.
def Quiescent (p : Side → Peer) (s : State) : Prop :=
  ∀ e, e.ours → Copy.step p s e = none

theorem Dir.step_isSome (x : Side) (srcClosed dstClosed dstTCP : Bool) (h : ¬d.phase.ended)
    (he : d.eof) :
    ∃ e, (Event.dir x e).ours ∧ (d.step srcClosed dstClosed dstTCP e).isSome := by
  cases hp : d.phase
  case report | halfClose | done => simp [hp, Phase.ended] at h
  case write chunk =>
    refine ⟨.write, rfl, ?_⟩
    simp only [step, hp]
    split <;> rfl
  case read =>
    by_cases hr : d.ends srcClosed
    case pos => exact ⟨.readEnd, rfl, by simp [step, hp, hr]⟩
    case neg =>
      refine ⟨.read 1, rfl, ?_⟩
      rw [ends_iff] at hr
      by_cases ha : d.ahead = []
      case pos =>
        have hb : srcClosed = false ∧ 0 < d.buffered.length := by
          simp_all [List.length_pos_iff]
        simp [step, hp, read, ha, hb, Nat.succ_le_of_lt hb.right]
      case neg => simp [step, hp, read, ha, Nat.succ_le_of_lt (List.length_pos_iff.mpr ha)]

theorem Quiescent.ended (q : Quiescent p s) (he : (s.dir x).eof) : (s.dir x).phase.ended := by
  by_contra h
  have ⟨e, ho, hd⟩ := Dir.step_isSome x (s.closed x) (s.closed x.other) (p x.other).tcp h he
  have ⟨d, hd⟩ := Option.isSome_iff_exists.mp hd
  simpa [step, hd] using q _ ho

theorem Consistent.delivered_iff (c : Consistent p s) (hp : (s.dir x).phase.ended) :
    (s.dir x).delivered = (p x).stream ↔ (s.dir x).rest = [] := by
  have hh : (s.dir x).phase.hand = [] := by
    cases h : (s.dir x).phase <;> simp_all [Phase.hand, Phase.ended]
  have hs := (c.sound x).stream
  rw [hh, (Dir.ends_iff.mp (c.src x hp)).left, List.append_nil, List.append_nil, List.append_assoc] at hs
  rw [← hs, List.self_eq_append_right]
  rfl

-- What is left for the tunnel to do.
def Phase.weight : Phase → Nat
  | read      => 3
  | write _   => 4
  | report    => 2
  | halfClose => 1
  | done      => 0

def Main.weight : Main → Nat
  | recvIn            => 4
  | recvOut _         => 3
  | closeClient _ _   => 2
  | closeUpstream _ _ => 1
  | done _ _          => 0

def Dir.weight (d : Dir) : Nat :=
  2 * (d.ahead.length + d.buffered.length) + d.phase.weight

def State.weight (s : State) : Nat :=
  (s.dir .client).weight + (s.dir .upstream).weight + s.main.weight

theorem Dir.Step.weight_lt {e : Dir.Event} (h : Step srcClosed dstClosed dstTCP d₁ e d₂)
    (ho : (Event.dir x e).ours) : d₂.weight < d₁.weight := by
  cases h
  case send | eof => contradiction
  case ahead hp _ _ =>
    simp only [Dir.weight, hp, Phase.weight, List.length_drop]
    omega
  case buffered hp _ _ _ _ =>
    simp only [Dir.weight, hp, Phase.weight, List.length_drop]
    omega
  case readEnd hp _ | fail hp _ | write hp _ _ | report hp | halfClose hp =>
    simp [Dir.weight, hp, Phase.weight]

theorem State.weight_setDir {m : Main} :
    { s.setDir x d with main := m }.weight + (s.dir x).weight + s.main.weight =
      s.weight + d.weight + m.weight := by
  cases x
  case client =>
    simp only [weight, setDir_self, setDir_of_ne (x := .client) (y := .upstream) (by simp)]
    omega
  case upstream =>
    simp only [weight, setDir_self, setDir_of_ne (x := .upstream) (y := .client) (by simp)]
    omega

theorem Step.weight_lt (h : Step p s₁ e s₂) (ho : e.ours) : s₂.weight < s₁.weight := by
  cases h
  case dir x e d h =>
    have hd := h.weight_lt ho
    have hw := s₁.weight_setDir (x := x) (d := d) (m := s₁.main)
    simp only [State.weight, State.afterDir_dir, State.afterDir_main] at hw ⊢
    simp only [State.setDir_main]
    omega
  case recvIn n hm _ =>
    have hw := s₁.weight_setDir (x := .client) (d := { s₁.dir .client with ch := none }) (m := .recvOut n)
    simp only [hm, Main.weight, Dir.weight] at hw
    dsimp only at hw ⊢
    omega
  case recvOut m n hm _ =>
    have hw := s₁.weight_setDir (x := .upstream) (d := { s₁.dir .upstream with ch := none })
      (m := .closeClient m n)
    simp only [hm, Main.weight, Dir.weight] at hw
    dsimp only at hw ⊢
    omega
  case closeClient hm | closeUpstream hm => simp [State.weight, State.close, hm, Main.weight]

theorem tunnel_delivers_iff (r : (system p).Run es s) :
    (∃ es' s', (system p).Run (es ++ es') s' ∧ (∀ e ∈ es', e.ours) ∧ Quiescent p s') ∧
    (Quiescent p s → (system p).Meets (NothingLeft p) es →
      ∀ x, (s.dir x).eof → (s.dir x).delivered = (p x).stream) ∧
    (Quiescent p s → (∀ x, (s.dir x).eof) →
      ((∀ x, (s.dir x).delivered = (p x).stream) ↔ (system p).Meets (NothingLeft p) es)) := by
  have c := consistent r.reachable
  have hk : (system p).Meets (NothingLeft p) es ↔ Kept s := by
    rw [← r.always_iff_last fun _ _ _ _ h => (Step.of_step h).kept_of_kept]
    refine (r.always_iff (by simp [Kept, system, State.init]) ?_).symm
    exact fun _ _ _ r k h => (Step.of_step h).kept_iff (consistent r) k
  refine ⟨?_, ?_, ?_⟩
  · exact r.exists_stuck State.weight fun _ _ _ ho h => (Step.of_step h).weight_lt ho
  · intro q m x he
    have hp := q.ended he
    exact (c.delivered_iff hp).mpr <| c.rest_eq_nil hp <| hk.mp m x
  · intro q he
    rw [hk]
    constructor
    · exact fun hd x _ => (c.delivered_iff (q.ended (he x))).mp (hd x)
    · exact fun k x => (c.delivered_iff (q.ended (he x))).mpr <| c.rest_eq_nil (q.ended (he x)) (k x)

theorem Quiescent.of_done {m n : Nat} (hd : ∀ x, (s.dir x).phase = .done) (hm : s.main = .done m n) :
    Quiescent p s := by
  intro e ho
  cases e
  case dir x e =>
    cases e
    case send | eof => contradiction
    all_goals simp [step, Dir.step, hd]
  case recv  => simp [step, State.recv, hm]
  case close => simp [step, State.closeConn, hm]

-- A client that sends a request and shuts down its side, and a server that answers it.
def somePeers (tcp : Bool) : Side → Peer
  | .client   => ⟨true, [0x47], [0x45, 0x54]⟩
  | .upstream => ⟨tcp, [], [0x4F, 0x4B]⟩

def requestRun : List Event :=
  [.dir .client (.read 1), .dir .client .write, .dir .client (.send 2), .dir .client .eof,
   .dir .client (.read 2), .dir .client .write, .dir .client .readEnd, .dir .client .report,
   .dir .client .halfClose, .recv, .dir .upstream (.send 2), .dir .upstream .eof]

def closeRun : List Event :=
  [.dir .upstream .readEnd, .dir .upstream .report, .dir .upstream .halfClose, .recv, .close, .close]

def answeredRun : List Event :=
  requestRun ++ [.dir .upstream (.read 2), .dir .upstream .write] ++ closeRun

theorem answeredRun_isSome : ((system (somePeers true)).exec answeredRun).isSome := by
  decide

theorem tunnel_delivers_answeredRun : ∃ s, (system (somePeers true)).Run answeredRun s ∧
    (s.dir .client).delivered = [0x47, 0x45, 0x54] ∧ (s.dir .upstream).delivered = [0x4F, 0x4B] := by
  have r := System.Run.of_isSome answeredRun_isSome
  have ⟨_, _, h⟩ := tunnel_delivers_iff r
  have hd := (h (.of_done (m := 3) (n := 2) (by decide) (by decide)) (by decide)).mpr ?_
  · exact ⟨_, r, hd .client, hd .upstream⟩
  · intro es₁ e es₂ s he rs x
    cases x <;> simp [somePeers, Side.other]

-- The connection to the server is closed before the answer has arrived.
def lostRun : List Event :=
  requestRun ++ closeRun

theorem lostRun_isSome : ((system (somePeers false)).exec lostRun).isSome := by
  decide

theorem not_delivered_lostRun : ∃ s, (system (somePeers false)).Run lostRun s ∧
    Quiescent (somePeers false) s ∧ (∀ x, (s.dir x).eof) ∧
    (s.dir .upstream).delivered ≠ (somePeers false .upstream).stream :=
  ⟨_, .of_isSome lostRun_isSome, .of_done (m := 3) (n := 0) (by decide) (by decide), by decide, by decide⟩

end Application.Proxy.Copy
