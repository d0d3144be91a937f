import IotJs.Proofs.SocketRespects

/-!
# `IotJs.Proofs.SocketHalves`: a socket whose two halves are done

Five places of `net.js` close a socket, each under its own test. A half-open socket is closed
by `onread` when EOF comes, by `onSocketFinish` when 'finish' comes, or by the callback of the
native shutdown. Each of the three leaves the work to one that comes later, and there is an
order in which none is left: the native shutdown completes, data arrives and is buffered,
and EOF comes while the data is still there. Then `onread` does not set `readable` to
`false`, so `maybeDestroy` in `onSocketEnd` does nothing when 'end' comes at last.
`destroySoon` would close the socket, but its test reads `_writableState.finished`, a field that
does not exist, so it waits for a 'finish' that was emitted long ago.

`Stuck` describes the socket that EOF must not find. NuttX reports EOF inside a block of data,
and there `Stuck` is about what the data leaves. `HalvesRely` is what a call from inside a
listener guarantees; a native call may buffer data, so at rest only the first part holds.
-/

set_option autoImplicit false

namespace IotJs.Socket

open Reentrant WritableObject ReadableObject

/-- Both halves are done, and nothing that is pending closes the socket. -/
def Leaks (s : Socket) : Prop :=
  s._writableState.ended = true ∧ s._readableState.ended = true ∧
    s._socketState.destroyed = false ∧ s.shutdowns = 0

instance (s : Socket) : Decidable (Leaks s) :=
  inferInstanceAs (Decidable (_ ∧ _))

/-- The writable half is done, no native shutdown is pending, and data waits to be read. -/
def Stuck (s : Socket) : Prop :=
  s._writableState.ended = true ∧ s._socketState.destroyed = false ∧ s.shutdowns = 0 ∧
    0 < s._readableState.length

instance (s : Socket) : Decidable (Stuck s) :=
  inferInstanceAs (Decidable (_ ∧ _))

/-- What the block `data` leaves: only a paused stream buffers it. -/
def arrived (data : Bytes) (s : Socket) : Socket :=
  if s._readableState.ended || s._readableState.flowing then s else pushed data s

/-- EOF does not find a socket that is stuck. -/
def eofInTime (P : Platform) (s : Socket) : Call → Bool
  | .onread .eof => decide (¬ Stuck s)
  | .onread (.data buffer) =>
      match splitEof P buffer with
      | (none, true) => !P.nuttx || decide (¬ Stuck s)
      | (some payload, true) => !P.nuttx || decide (¬ Stuck (arrived payload s))
      | (_, false) => true
  | _ => true

/-- EOF comes in time, and no listener of 'end' throws past the code that closes the socket. On
NuttX, where 'finish' can come between a block and its EOF, a native shutdown is refused only
where no data waits. -/
def halvesClose (P : Platform) : Surroundings where
  call i s := eofInTime P s i = true
  answer q s err := P.nuttx = true → q = .shutdown → err ≠ 0 → s._readableState.length = 0
  returns _ _ := True
  throws v s := v = .event .end_ → ¬ Leaks s

instance (P : Platform) : (halvesClose P).Testable where
  call i s := inferInstanceAs (Decidable (eofInTime P s i = true))
  answer q s err := inferInstanceAs (Decidable (P.nuttx = true → q = .shutdown → err ≠ 0 →
    s._readableState.length = 0))
  returns _ _ := .isTrue trivial
  throws v s := inferInstanceAs (Decidable (v = .event .end_ → ¬ Leaks s))

/-- Nothing is left to read, and nothing more will come. -/
def Drained (s : Socket) : Prop :=
  s._readableState.ended = true ∧ s._readableState.length = 0

/-- What a call from inside a listener guarantees. -/
structure HalvesRely (P : Platform) (s t : Socket) : Prop where
  leaks : ¬ Leaks s → ¬ Leaks t
  drained : Drained s → Drained t
  stuck : P.nuttx = true → ¬ Stuck s → ¬ Stuck t

theorem HalvesRely.trans {P : Platform} {s t u : Socket} (h₁ : HalvesRely P s t)
    (h₂ : HalvesRely P t u) : HalvesRely P s u :=
  ⟨h₂.leaks ∘ h₁.leaks, h₂.drained ∘ h₁.drained, fun hn => h₂.stuck hn ∘ h₁.stuck hn⟩

/-- The contract of the two halves. Data arrives only at rest, from a connection. -/
def halves (P : Platform) : Contract Socket where
  inv s := 0 < s._readableState.length → s._writableState.ready = true
  rely := HalvesRely P
  outer s t := ¬ Leaks s → ¬ Leaks t
  refl _ := ⟨id, id, fun _ => id⟩
  trans := .trans
  outer_of_rely h := h.leaks
  outer_trans h₁ h₂ := h₂ ∘ h₁

section actions

variable {P : Platform} {E : Surroundings} {k : Kind} {s t u : Socket}

theorem Hands.halves {req : WriteReq} (h : Hands E req s t) (hi : (halves P).inv s) :
    (halves P).inv t ∧ HalvesRely P s t := by
  cases h <;> exact ⟨hi, id, id, fun _ => id⟩

theorem Flush.halves (h : Flush E s t) (hi : (halves P).inv s) :
    (halves P).inv t ∧ HalvesRely P s t := by
  cases h with
  | next _ _ h =>
      have ht := h.halves (P := P) hi
      exact ⟨ht.1, ht.2.leaks, ht.2.drained, ht.2.stuck⟩
  | _ => exact ⟨hi, id, id, fun _ => id⟩

theorem Establishes.halves (h : Establishes s u) :
    (IotJs.Socket.halves P).inv u ∧ HalvesRely P s u := by
  cases h <;> exact ⟨fun _ => rfl, id, id, fun _ => id⟩

/-- A closed socket does not leak, and is not stuck. -/
theorem HalvesRely.of_destroyed (hd : t._socketState.destroyed = true)
    (hr : t._readableState = s._readableState) : HalvesRely P s t := by
  refine ⟨fun _ hl => ?_, fun h => ?_, fun _ _ hst => ?_⟩
  · have hd' := hl.2.2.1
    rw [hd] at hd'
    cases hd'
  · rw [Drained, hr]
    exact h
  · have hd' := hst.2.1
    rw [hd] at hd'
    cases hd'

/-- 'finish' closes the socket, or leaves a native shutdown pending. Where the shutdown was
refused, EOF has not come yet. -/
theorem Finish.halves (h : Finish (halvesClose P) s t) (hi : (halves P).inv s) :
    (IotJs.Socket.halves P).inv t ∧ HalvesRely P s t := by
  cases h with
  | close timer => exact ⟨hi, .of_destroyed rfl rfl⟩
  | shutdown hr =>
      exact ⟨hi, fun _ hl => absurd hl.2.2.2 (Nat.succ_ne_zero _), id,
        fun _ _ hst => absurd hst.2.2.1 (Nat.succ_ne_zero _)⟩
  | refused err herr hr hans =>
      refine ⟨hi, fun _ hl => ?_, id, fun hn _ hst => ?_⟩
      · have hended : s._readableState.ended = true := hl.2.1
        rw [hr] at hended
        cases hended
      · have hempty : s._readableState.length = 0 := hans hn rfl herr
        have hlength : 0 < s._readableState.length := hst.2.2.2
        omega

/-- Every action but EOF, and those of the native side alone. -/
theorem Action.halves (h : Action (halvesClose P) k s t) (hk : k ≠ .eof) (hk' : k ≠ .native)
    (hb : Base s) (hi : (halves P).inv s) :
    (IotJs.Socket.halves P).inv t ∧ HalvesRely P s t := by
  cases h with
  | write req he hr hw hb h =>
      have ht := h.halves (P := P) hi
      exact ⟨ht.1, ht.2.leaks, ht.2.drained, ht.2.stuck⟩
  | close => exact ⟨hi, .of_destroyed rfl rfl⟩
  | establish h hf =>
      have hu := h.halves (P := P)
      have ht := hf.halves hu.1
      exact ⟨ht.1, hu.2.trans ht.2⟩
  | establishFinish h hdue hf =>
      have hu := h.halves (P := P)
      have ht := hf.halves hu.1
      exact ⟨ht.1, hu.2.trans ht.2⟩
  | complete hw hcall hf =>
      have ht := hf.halves (P := P) hi
      exact ⟨ht.1, ht.2.leaks, ht.2.drained, ht.2.stuck⟩
  | completeFinish hw hcall hdue hf =>
      have ht := hf.halves (P := P) hi
      exact ⟨ht.1, ht.2.leaks, ht.2.drained, ht.2.stuck⟩
  | shutdownDone => exact absurd rfl hk'
  | shutdownClose => exact ⟨hi, .of_destroyed rfl rfl⟩
  | tickFinish hi' hcall he hh hf =>
      have ht := hf.halves (P := P) hi
      exact ⟨ht.1, ht.2.leaks, ht.2.drained, ht.2.stuck⟩
  | tickMissing hi' hcall he hnone =>
      -- a socket that never had a handle has met no EOF and received no data
      have hready : s._writableState.ready = false := by
        by_contra hr
        have hsome := hb.handle.ready (by simpa using hr)
        rw [hnone] at hsome
        cases hsome
      refine ⟨hi, fun _ hl => ?_, id, fun _ _ hst => ?_⟩
      · have hended := hb.read.ended hl.2.1
        rw [hready] at hended
        cases hended
      · have hr := hi hst.2.2.2
        rw [hready] at hr
        cases hr
  | push => exact absurd rfl hk'
  | take =>
      refine ⟨fun hlt => absurd hlt (Nat.lt_irrefl 0), id, fun hd => ⟨hd.1, rfl⟩,
        fun _ _ hst => absurd hst.2.2.2 (Nat.lt_irrefl 0)⟩
  | eof => exact absurd rfl hk
  | _ => exact ⟨hi, id, id, fun _ => id⟩

theorem halves_sound (hk : k ≠ .eof) (hk' : k ≠ .native) : Sound (halvesClose P) (halves P) k :=
  fun hb hi ha => ha.halves hk hk' hb hi

theorem halves_respects : Respects (halvesClose P) (halves P) :=
  respects_of_sound (halves_sound (by simp) (by simp)) (halves_sound (by simp) (by simp))

end actions

/-! ### EOF -/

section eof

variable {P : Platform} {s₀ s : Socket}

/-- What a call at rest owes. -/
abbrev Closes (P : Platform) (s t : Socket) : Prop :=
  (basis.and (halves P)).PostAt true s t

/-- The socket is closed, whatever else happened. -/
theorem closes_of_destroyed {u : Socket} (hm : Mono s₀ u) (h : Kept (halves P) u s)
    (hd : s._socketState.destroyed = true) : Closes P s₀ s := by
  refine ⟨h.1, hm.trans h.mono, fun _ hl => ?_⟩
  have hd' := hl.2.2.1
  rw [hd] at hd'
  cases hd'

/-- EOF on a socket that is not stuck. Either something that is pending closes the socket, or
nothing is left to read: then 'end' comes now, and `onread` itself closes the socket. -/
theorem onreadEof_closes (h : Kept (halves P) s₀ s) (hacc : s.accepting = false)
    (hready : s._writableState.ready = true) (hst : ¬ Stuck s) :
    (onreadEof P).wp (halvesClose P) .nil (basis.and (halves P)) (Closes P s₀)
      (fun _ => Closes P s₀) s := by
  have hD := halves_respects (P := P)
  have hmet : ∀ timer, Base (eofMet { s with _timer := timer }) ∧
      Mono s₀ (eofMet { s with _timer := timer }) := by
    intro timer
    have ht := h.timer hD timer
    have ha : Action (halvesClose P) .eof _ (eofMet { s with _timer := timer }) := .eof hready
    exact ⟨ha.base ht.base, ht.mono.trans ha.mono⟩
  by_cases hl : Leaks (eofMet s)
  · obtain ⟨he, -, hd, hn⟩ := hl
    have hempty : s._readableState.length = 0 := by
      by_contra hne
      exact hst ⟨he, hd, hn, by omega⟩
    simp only [onreadEof, Prog.wp_bind, Prog.wp_get, Prog.wp_ite, wp_modifyState, Prog.wp_pure]
    refine wp_resetSocketTimeout fun timer => wp_push.mpr
      ⟨fun hc => (by cases hc), fun _ => wp_onEof.mpr ?_, fun _ hc => (by cases hc)⟩
    obtain ⟨hb, hm⟩ := hmet timer
    have hu : Kept (halves P) _ (eofMet { s with _timer := timer }) := .refl hb h.1.2
    -- what comes after 'end': the stream is still drained, so `onread` closes the socket
    have hclose : ∀ t, Kept (halves P) (eofMet { s with _timer := timer }) t →
        t._readableState.endEmitted = true →
        (t._readableState.length = 0 → (maybeDestroy P).wp (halvesClose P) .nil
          (basis.and (halves P)) (Closes P s₀) (fun _ => Closes P s₀)
          { t with _socketState := { t._socketState with readable := false } }) ∧
        (¬ t._readableState.length = 0 → Closes P s₀ t) := by
      intro t ht hem
      have hdrained : Drained t := ht.2.2.drained ⟨rfl, hempty⟩
      have hte : t._writableState.ended = true := ht.mono.ended he
      have htready : t._writableState.ready = true := ht.mono.ready hready
      refine ⟨fun _ => ?_, fun hne => absurd hdrained.2 hne⟩
      refine Prog.wp_mono (fun _ => id) (fun _ v hv => closes_of_destroyed hm hv.1 (hv.2 ?_ rfl)) _
        (maybeDestroy_closes hD (ht.act hD.common (.unreadable hem)) hte
          (ht.base.handle.ready htready))
      refine ht.base.life.idle ?_
      rw [← ht.base.life.ready]
      exact htready
    refine ⟨fun _ => wp_emitEnd.mpr ⟨fun hn => (by cases hn), fun _ => ⟨fun _ => ?_,
      fun hem => hclose _ hu hem⟩⟩, fun hne => absurd hempty hne⟩
    have hend := hu.act hD.common (.end_ rfl hempty)
    show Prog.wp _ _ _ _ (do
      record (.event .end_)
      onSocketEnd P
      Prog.yieldTo (.event .end_)) _ _
    simp only [Prog.wp_bind, wp_record]
    refine Prog.wp_mono (fun _ => id) (fun _ t ht => ?_) _
      (onSocketEnd_ended hD hend.restart he (hb.handle.ready hready))
    refine (Prog.wp_yieldTo ..).mpr ⟨ht.1, fun v _ hv => ⟨fun _ => ?_, fun hthrow =>
      ⟨hv.1, (hm.trans (hend.trans ht).mono).trans hv.2.1, fun _ => hthrow rfl⟩⟩⟩
    exact hclose v ((hend.trans ht).trans hv) (hv.2.1.endEmitted (ht.mono.endEmitted rfl))
  · -- what the socket still waits for closes it
    have hat : ∀ t, Kept (halves P) s₀ t → Closes P s₀ t := fun t ht => ht.at true
    refine Prog.wp_mono hat (fun _ => hat) _ (onreadEof_keeps hD (fun timer => ?_) hacc)
    obtain ⟨hb, hm⟩ := hmet timer
    exact ⟨⟨hb, h.1.2⟩, hm, h.2.2.trans ⟨fun _ => hl, fun hd => ⟨rfl, hd.2⟩, fun _ => id⟩⟩

/-! ### The native calls -/

theorem arrived_of_taken {data : Bytes}
    (h : s._readableState.ended = true ∨ s._readableState.flowing = true) :
    arrived data s = s := by
  rw [arrived, if_pos]
  rwa [Bool.or_eq_true]

theorem arrived_of_paused {data : Bytes} (he : s._readableState.ended = false)
    (hf : s._readableState.flowing = false) : arrived data s = pushed data s := by
  rw [arrived, he, hf]
  rfl

theorem stuck_arrived_timer {data : Bytes} (timer : Option Timer) :
    Stuck (arrived data { s with _timer := timer }) = Stuck (arrived data s) := by
  simp only [arrived]
  by_cases hc : (s._readableState.ended || s._readableState.flowing) = true
  · rw [if_pos hc, if_pos hc]
    rfl
  · rw [if_neg hc, if_neg hc]
    rfl

/-- What follows a part of a native call that leaves `u`. -/
theorem Closes.after {u t : Socket} (h : Closes P u t) (hm : Mono s u)
    (hl : ¬ Leaks s → ¬ Leaks u) : Closes P s t :=
  ⟨h.1, hm.trans h.2.1, h.2.2 ∘ hl⟩

/-- A block arrives: nothing leaks that did not leak before. -/
theorem arrived_kept (h : Kept (halves P) s s) (hready : s._writableState.ready = true)
    (data : Bytes) : Kept (halves P) (arrived data s) (arrived data s) ∧ Mono s (arrived data s) ∧
      (¬ Leaks s → ¬ Leaks (arrived data s)) := by
  by_cases htaken : s._readableState.ended = true ∨ s._readableState.flowing = true
  · rw [arrived_of_taken htaken]
    exact ⟨h, .refl s, id⟩
  · simp only [not_or, Bool.not_eq_true] at htaken
    rw [arrived_of_paused htaken.1 htaken.2]
    have ha : Action (halvesClose P) .native s (pushed data s) := .push data htaken.1
    refine ⟨.refl (ha.base h.base) fun _ => hready, ha.mono, fun _ hl => ?_⟩
    have hended : s._readableState.ended = true := hl.2.1
    rw [htaken.1] at hended
    cases hended

theorem push_arrived {data : Bytes} (h : Kept (halves P) s s) (hacc : s.accepting = false)
    (hready : s._writableState.ready = true)
    (herr : s._readableState.ended = true → ErrorCause (halvesClose P)) :
    Keeps (halvesClose P) (halves P) (arrived data s)
      ((readable P).push P (.data (.buffer data))) s := by
  have hkept := (arrived_kept h hready data).1
  refine push_keeps halves_respects hacc (fun htaken => ?_) herr fun he hf => ?_
  · rw [arrived_of_taken htaken]
    exact h
  · rw [arrived_of_paused he hf] at hkept ⊢
    exact hkept

theorem onread_closes {result : ReadResult} (h : Kept (halves P) s s)
    (hacc : s.accepting = false) (hready : s._writableState.ready = true)
    (hcall : eofInTime P s (.onread result) = true) :
    (onread P result).wp (halvesClose P) .nil (basis.and (halves P)) (Closes P s)
      (fun _ => Closes P s) s := by
  have hD := halves_respects (P := P)
  have hat : ∀ t, Kept (halves P) s t → Closes P s t := fun t ht => ht.at true
  cases result with
  | eof => exact onreadEof_closes h hacc hready (of_decide_eq_true hcall)
  | error nread =>
      simp only [onread, Prog.wp_bind]
      refine wp_resetSocketTimeout fun timer => Prog.wp_mono hat (fun _ => hat) _ ?_
      exact emit_error_keeps hD (.read hcall) (h.timer hD timer)
  | data buffer =>
      have herr : s._readableState.ended = true → ErrorCause (halvesClose P) :=
        fun he => .push he hcall
      simp only [onread, Prog.wp_bind]
      refine wp_resetSocketTimeout fun timer => ?_
      have hv := h.timer hD timer
      have hpush : ∀ data, Keeps (halvesClose P) (halves P) (arrived data { s with _timer := timer })
          ((readable P).push P (.data (.buffer data))) { s with _timer := timer } :=
        fun data => push_arrived hv.restart hacc hready herr
      have harr : ∀ data t, Closes P (arrived data { s with _timer := timer }) t → Closes P s t := by
        intro data t ht
        obtain ⟨-, hm, hl⟩ := arrived_kept hv.restart hready data
        exact ht.after (hv.mono.trans hm) hl
      refine (Prog.wp_ite ..).mpr ⟨fun hnuttx => ?_, fun _ => ?_⟩
      · -- NuttX: EOF finds what the payload leaves
        cases hsplit : splitEof P buffer with
        | mk payload eofNeeded =>
            simp only [eofInTime, hsplit, hnuttx, Bool.not_true, Bool.false_or] at hcall
            cases payload with
            | none =>
                cases eofNeeded with
                | false => exact hat _ hv
                | true => exact onreadEof_closes hv hacc hready (of_decide_eq_true hcall)
            | some payload =>
                refine (Prog.wp_bind ..).mpr ?_
                refine Prog.wp_mono (fun t ht => harr payload t (ht.at true)) (fun _ t ht => ?_) _
                  (hpush payload)
                cases eofNeeded with
                | false => exact harr payload t (ht.at true)
                | true =>
                    have hst : ¬ Stuck (arrived payload { s with _timer := timer }) := by
                      rw [stuck_arrived_timer]
                      exact of_decide_eq_true hcall
                    have hstart := (arrived_kept hv.restart hready payload).2.1
                    refine Prog.wp_mono (harr payload) (fun _ => harr payload) _
                      (onreadEof_closes ht ?_ ?_ (ht.2.2.stuck hnuttx hst))
                    · exact ht.mono.accepting (hstart.accepting hacc)
                    · exact ht.mono.ready (hstart.ready hready)
      · exact Prog.wp_mono (fun t ht => harr buffer t (ht.at true))
          (fun _ t ht => harr buffer t (ht.at true)) _ (hpush buffer)

/-- The callback of the native shutdown closes a socket that has met EOF. -/
theorem afterShutdown_closes (h : Kept (halves P) s s) (hacc : s.accepting = false)
    (hpos : 0 < s.shutdowns) :
    (body P .afterShutdown).wp (halvesClose P) .nil (basis.and (halves P)) (Closes P s)
      (fun _ => Closes P s) s := by
  have hD := halves_respects (P := P)
  by_cases hdone : s._readableState.ended = false ∨ s._socketState.destroyed = true
  · have ha : Action (halvesClose P) .native s { s with shutdowns := s.shutdowns - 1 } :=
      .shutdownDone hdone
    have hkept : Kept (halves P) _ { s with shutdowns := s.shutdowns - 1 } :=
      .refl (ha.base h.base) h.1.2
    have hl : ¬ Leaks { s with shutdowns := s.shutdowns - 1 } := by
      rintro ⟨-, hended, hd, -⟩
      rcases hdone with hr | hd'
      · rw [show s._readableState.ended = true from hended] at hr
        cases hr
      · rw [show s._socketState.destroyed = false from hd] at hd'
        cases hd'
    have hat : ∀ t, Kept (halves P) { s with shutdowns := s.shutdowns - 1 } t → Closes P s t :=
      fun t ht => Closes.after (ht.at true) ha.mono fun _ => hl
    refine Prog.wp_mono hat (fun _ => hat) _ (afterShutdown_keeps hD h.base hacc hpos
      (fun _ => hkept) fun hr hd => ?_)
    simp [hr, hd] at hdone
  · have hat : ∀ t, Kept (halves P) s t → Closes P s t := fun t ht => ht.at true
    refine Prog.wp_mono hat (fun _ => hat) _ (afterShutdown_keeps hD h.base hacc hpos
      (fun h => absurd h hdone) fun hr hd => h.act hD.common
        (.shutdownClose none (h.base.life.shutdowns hpos) hd ?_))
    exact h.base.read.isSome h.base.handle.ready (.inr hr)

end eof

/-! ### Runs -/

section runs

variable {P : Platform} {s₀ : Socket}

theorem readableState_of_initial (h : Initial s₀) : s₀._readableState = .new := by
  obtain ⟨_, _, rfl⟩ | ⟨_, rfl⟩ := h
  · rfl
  · rfl

theorem halves_holds (hinit : Initial s₀) :
    Contract.Holds (machine P) (halvesClose P) .nil (basis.and (halves P)) s₀ := by
  have hD := halves_respects (P := P)
  have hinv : (halves P).inv s₀ := by
    intro hlt
    rw [readableState_of_initial hinit] at hlt
    exact absurd hlt (Nat.lt_irrefl 0)
  refine holds_of_keeps hinit hinv hD
    (respectsFinish_of_sound hD (halves_sound (by simp) (by simp)))
    (respectsConnect_of_sound hD (halves_sound (by simp) (by simp))) fun {i s} hi hk hen hcall => ?_
  cases i with
  | afterWrite status =>
      refine afterWrite_at hD (halves_sound (by simp) (by simp)) (fun hk ha => ?_) hk hen hcall
        status rfl
      exact finishes_of_kept hD (hk.act (halves_sound (by simp) (by simp)) ha)
        ha.ended_of_completeFinish
  | afterShutdown =>
      obtain ⟨hacc, hpos⟩ := enabled_afterShutdown hen
      exact afterShutdown_closes hk hacc hpos
  | onread result =>
      obtain ⟨hacc, hready⟩ := enabled_onread hk.base hen
      exact onread_closes hk hacc hready hcall
  | _ => cases hi

end runs

end IotJs.Socket
