import VpnTunnel.Tunnelpool.Scheduler.Theorems.Grace

namespace Tunnelpool.Scheduler

variable {o : Options} {s s₁ s₂ : State} {e : Event} {i : CallID} {c : Call} {d : Device}
  {res : Option Device}

-- A call holds a grant from the moment it is sent until it is released.
def Call.Holds (c : Call) (d : Device) (res : Option Device) : Prop :=
  .ok d res ∈ c.replyCh ∨ c.phase = .granted d res

-- The resolver belongs to the device.
def State.Authentic (s : State) (d : Device) (res : Option Device) : Prop :=
  ∃ b, s.built[d]? = some b ∧ res = if b.resolver then some d else none

theorem State.Authentic.unique {res₁ res₂ : Option Device} (h₁ : s.Authentic d res₁)
    (h₂ : s.Authentic d res₂) : res₁ = res₂ := by
  have ⟨b₁, hb₁, hr₁⟩ := h₁
  have ⟨b₂, hb₂, hr₂⟩ := h₂
  cases Option.some.inj <| hb₁ ▸ hb₂
  exact hr₁.trans hr₂.symm

theorem State.Authentic.mono (h : s₁.Authentic d res) (hb : s₁.built <+: s₂.built) :
    s₂.Authentic d res := by
  have ⟨b, h, hr⟩ := h
  have ⟨l, hl⟩ := hb
  exact ⟨b, hl ▸ List.getElem?_append_left (List.getElem?_eq_some_iff.mp h).1 ▸ h, hr⟩

def State.Held (s : State) (i : CallID) (d : Device) (res : Option Device) : Prop :=
  ∃ c, s.calls[i]? = some c ∧ c.Holds d res

-- A grant that is not held already is for the device that is live after the step.
def HeldFrom (s₁ s₂ : State) : Prop :=
  ∀ i d res, s₂.Held i d res →
    s₁.Held i d res ∨ (s₂.currentDevice = some d ∧ s₂.currentResolver = res)

namespace HeldFrom

theorem modify {f : Call → Call} (hc : s₁.calls[i]? = some c)
    (h : ∀ d res, (f c).Holds d res → c.Holds d res) (hs : s₂.calls = s₁.calls.modify i f) :
    HeldFrom s₁ s₂ := by
  intro k d res ⟨c', hc', hh⟩
  rw [hs] at hc'
  cases List.getElem?_modify_eq_some.mp hc'
  case inr hk => exact .inl ⟨c', hk.right, hh⟩
  case inl hk =>
    have ⟨hk, c'', hc'', hf⟩ := hk
    subst hk hf
    cases Option.some.inj <| hc ▸ hc''
    exact .inl ⟨c, hc, h d res hh⟩

theorem deliver {r : RouteReply} {reqs : List RouteRequest}
    (h : ∀ d res, r = .ok d res → s₂.currentDevice = some d ∧ s₂.currentResolver = res)
    (hs : s₂.calls = deliver r s₁.calls reqs) : HeldFrom s₁ s₂ := by
  intro i d res ⟨c, hc, hh⟩
  rw [hs, Scheduler.deliver.getElem?, Option.map_eq_some_iff] at hc
  have ⟨c', hc', he⟩ := hc
  subst he
  cases hh
  case inr hp => exact .inl ⟨c', hc', .inr hp⟩
  case inl hm =>
    cases List.mem_append.mp hm
    case inl hm => exact .inl ⟨c', hc', .inl hm⟩
    case inr hm => exact .inr <| h d res (List.mem_replicate.mp hm).right.symm

theorem same (hs : s₂.calls = s₁.calls) : HeldFrom s₁ s₂ :=
  fun _ _ _ ⟨c, hc, hh⟩ => .inl ⟨c, hs ▸ hc, hh⟩

theorem snoc (hs : s₂.calls = s₁.calls ++ [c]) (h : ∀ d res, ¬c.Holds d res) : HeldFrom s₁ s₂ := by
  intro i d res ⟨c', hc, hh⟩
  rw [hs] at hc
  cases List.getElem?_snoc_eq_some.mp hc
  case inl hc => exact .inl ⟨c', hc, hh⟩
  case inr hc => exact absurd (hc.right ▸ hh) (h d res)

theorem of_step (sh : Shape o s₁) (h : step o s₁ e = some s₂) : HeldFrom s₁ s₂ := by
  cases step_elim h sh.pending_empty
  case tick   => exact same rfl
  case refuse => exact snoc rfl (by simp [Call.Holds])
  case route  => exact snoc rfl (by simp [Call.Holds])
  case call c hc st =>
    cases st
    case receive r rs hp hr =>
      refine modify hc (fun d res hh => ?_) rfl
      cases hh
      case inl h => exact .inl (hr ▸ List.mem_cons_of_mem _ h)
      case inr h => cases r <;> simp_all [Call.Holds, RouteReply.phase]
    all_goals
      refine modify hc ?_ rfl
      simp +contextual [Call.Holds]
  case loop hr st =>
    cases st
    case done =>
      exact deliver (r := .err .ctxErr) (by simp) teardown_calls
    case grant hd _ =>
      exact deliver (r := .ok _ s₁.currentResolver) (by simp [hd]) rfl
    case built res _ _ =>
      exact deliver (r := .ok _ res) (by simp) rfl
    case failed =>
      exact deliver (r := .err (bringUpFailure s₁.settleZone)) (by simp) rfl
    case failedNext =>
      exact deliver (r := .err (bringUpFailure s₁.settleZone)) (by simp) teardown_calls
    case switch | graceSwitch => exact same (by simp [beginSwitch])
    case idle                 => exact same (by simp)
    all_goals exact same rfl

end HeldFrom

theorem activeJobs_ne_zero (r : (system o).Reachable s) (hr : s.running) (hh : s.Held i d res) :
    s.activeJobs ≠ 0 := by
  intro ha
  have ⟨c, hc, hh⟩ := hh
  have hg := grants_eq_zero r hr ha c (List.mem_of_getElem? hc)
  simp only [Call.grants, Nat.add_eq_zero_iff, List.countP_eq_zero] at hg
  cases hh
  case inl h => exact hg.left _ h rfl
  case inr h => simp [h, Phase.isGranted] at hg

-- The live device changes only while nobody holds a grant.
theorem current_eq_of_held (r : (system o).Reachable s₁) (h : step o s₁ e = some s₂) (hr : s₂.running)
    (hh : s₁.Held i d res) (hd : s₁.currentDevice = some d) :
    s₂.currentDevice = s₁.currentDevice ∧ s₂.currentResolver = s₁.currentResolver := by
  have sh := shape r
  have hr₁ := running_of_step sh h hr
  have ha := activeJobs_ne_zero r hr₁ hh
  have hs : ¬Fired s₁.settleTimer s₁.now := by
    rintro ⟨t, ht, _⟩
    simpa [State.devices, hd] using (devices_valid r).settling (Option.isSome_iff_exists.mpr ⟨t, ht⟩)
  cases step_elim h sh.pending_empty
  case call st => cases st <;> exact ⟨rfl, rfl⟩
  case loop st =>
    cases st
    case done                       => simp at hr
    case switch hn                  => simp [hn] at hd
    case built hf _ | failedNext hf => exact absurd hf hs
    case idle hz                    => exact absurd hz ha
    case graceSwitch hf _ _         =>
      obtain ⟨_, ht, _⟩ := hf
      exact absurd ((control r hr₁).idle (Option.isSome_of_mem ht)) ha
    all_goals exact ⟨rfl, rfl⟩
  all_goals exact ⟨rfl, rfl⟩

-- The grants that are held are for one and the same device, which is live while `Run` is running.
structure Grants (s : State) : Prop where
  current : s.running → ∀ i d res, s.Held i d res →
    s.currentDevice = some d ∧ s.currentResolver = res
  agree   : ∀ i₁ i₂ d₁ d₂ res₁ res₂, s.Held i₁ d₁ res₁ → s.Held i₂ d₂ res₂ → d₁ = d₂ ∧ res₁ = res₂
  held    : ∀ i d res, s.Held i d res → s.Authentic d res
  device  : ∀ d, s.currentDevice = some d → s.Authentic d s.currentResolver

theorem built_prefix_of_step (sh : Shape o s₁) (h : step o s₁ e = some s₂) : s₁.built <+: s₂.built := by
  cases step_elim h sh.pending_empty
  case call st => cases st <;> exact List.prefix_rfl
  case loop st =>
    cases st
    case built                              => exact List.prefix_append ..
    case done                               => simp [failStopped]
    case switch | graceSwitch | failedNext  => simp [beginSwitch, buildFailed]
    case idle                               => simp
    all_goals exact List.prefix_rfl
  all_goals exact List.prefix_rfl

theorem step_device_authentic (sh : Shape o s₁) (h : step o s₁ e = some s₂)
    (g : ∀ d, s₁.currentDevice = some d → s₁.Authentic d s₁.currentResolver)
    (hd : s₂.currentDevice = some d) : s₂.Authentic d s₂.currentResolver := by
  have hb := built_prefix_of_step sh h
  cases step_elim h sh.pending_empty
  case call st => cases st <;> exact (g d hd).mono hb
  case loop st =>
    cases st
    case built resolver reporter _ _ res _ hres =>
      cases hd
      exact ⟨_, List.getElem?_concat_length .., hres⟩
    case done | idle                        => simp at hd
    case switch | graceSwitch | failedNext  => simp [beginSwitch] at hd
    all_goals exact (g d hd).mono hb
  all_goals exact (g d hd).mono hb

theorem grants (r : (system o).Reachable s) : Grants s := by
  apply r.invariant_of_reachable
  case hi =>
    have hn : ∀ i d res, ¬(system o).init.Held i d res := by simp [State.Held, system, State.init]
    exact ⟨fun _ _ _ _ h => (hn _ _ _ h).elim, fun _ _ _ _ _ _ h => (hn _ _ _ h).elim,
      fun _ _ _ h => (hn _ _ _ h).elim, by simp [system, State.init]⟩
  intro s₁ e s₂ r g h
  have sh := shape r
  have hf := HeldFrom.of_step sh h
  have hd := fun d => step_device_authentic (d := d) sh h g.device
  have hc : s₂.running → ∀ i d res, s₂.Held i d res →
      s₂.currentDevice = some d ∧ s₂.currentResolver = res := by
    intro hr i d res hh
    cases hf i d res hh
    case inr h => exact h
    case inl hh =>
      obtain ⟨h₁, h₂⟩ := g.current (running_of_step sh h hr) i d res hh
      obtain ⟨h₃, h₄⟩ := current_eq_of_held r h hr hh h₁
      exact ⟨h₃.trans h₁, h₄.trans h₂⟩
  refine ⟨hc, ?_, ?_, hd⟩
  · intro i₁ i₂ d₁ d₂ res₁ res₂ h₁ h₂
    cases hr : s₂.running
    case true =>
      obtain ⟨hd₁, hr₁⟩ := hc hr _ _ _ h₁
      obtain ⟨hd₂, hr₂⟩ := hc hr _ _ _ h₂
      exact ⟨Option.some.inj (hd₁.symm.trans hd₂), hr₁.symm.trans hr₂⟩
    case false =>
      have hn : ∀ d, s₂.currentDevice ≠ some d := by simp [stopped_no_device (r.step h) hr]
      have h₁ := (hf _ _ _ h₁).resolve_right fun h => hn _ h.left
      have h₂ := (hf _ _ _ h₂).resolve_right fun h => hn _ h.left
      exact g.agree _ _ _ _ _ _ h₁ h₂
  · intro i d res hh
    cases hf i d res hh
    case inl hh => exact (g.held i d res hh).mono (built_prefix_of_step sh h)
    case inr hh => exact hh.right ▸ hd d hh.left

-- A caller keeps its grant until it releases it.
theorem granted_of_step (sh : Shape o s₁) (h : step o s₁ e = some s₂) (hc : s₁.calls[i]? = some c)
    (hp : c.phase = .granted d res) (hn : e ≠ .release i ∧ e ≠ .releaseDone i) :
    ∃ c', s₂.calls[i]? = some c' ∧ c'.phase = .granted d res := by
  have hd {r : RouteReply} {reqs : List RouteRequest} :
      ∃ c', (deliver r s₁.calls reqs)[i]? = some c' ∧ c'.phase = .granted d res := by
    rw [deliver.getElem?, hc]
    exact ⟨_, rfl, hp⟩
  cases step_elim h sh.pending_empty
  case tick           => exact ⟨c, hc, hp⟩
  case refuse | route => exact ⟨c, List.getElem?_snoc_eq_some.mpr (.inl hc), hp⟩
  case call k c' hc' st =>
    have hk : k ≠ i := by
      intro hk
      subst hk
      cases Option.some.inj <| hc ▸ hc'
      cases st <;> simp_all
    have hm (f : Call → Call) : ∃ c', (s₁.calls.modify k f)[i]? = some c' ∧ c'.phase = .granted d res :=
      ⟨c, List.getElem?_modify_eq_some.mpr <| .inr ⟨hk, hc⟩, hp⟩
    cases st <;> exact hm _
  case loop st =>
    cases st
    case grant | built | failed => exact hd
    case done                   => simpa [failStopped] using hd
    case failedNext             => simpa [beginSwitch, buildFailed] using hd
    case switch | graceSwitch   => simpa [beginSwitch] using ⟨c, hc, hp⟩
    case idle                   => simpa using ⟨c, hc, hp⟩
    all_goals exact ⟨c, hc, hp⟩

end Tunnelpool.Scheduler
