import RsLxst.Lib.Machine
import RsLxst.Telephony.CaptureGate

/-!
# The push-to-talk lease

`Updated` lists the ways of an update and `Allowed` those of a look at the gate; every fact of a
gate's history is proved by cases on them. `Leased` is what a gate that allows audio owes to its
history: an accepted press, whose burst and last renewal have not run out and which nothing has
ended since. `lease_law` holds of every sequence of calls on a new gate.
-/

set_option autoImplicit false

namespace Lxst.Telephony.AudioTransmitGate

open Machine

/-! ## The calls -/

/-- The gate holds a press whose burst or lease has run out, not yet noted. -/
structure Expired (gate : AudioTransmitGate) (now : Instant) : Prop where
  open_ : gate.blocked = false
  past : ∃ begin, gate.began = some begin ∧
    (begin + fromSecs 10 ≤ now ∨ ∃ end_, gate.until_ = some end_ ∧ end_ ≤ now)

/-- A press whose burst and lease are still running has not expired. -/
theorem Expired.not_running {gate : AudioTransmitGate} {now begin : Instant}
    (h : gate.Expired now) (hbegan : gate.began = some begin) (hburst : now < begin + fromSecs 10)
    (hlease : ∀ end_, gate.until_ = some end_ → now < end_) : False := by
  obtain ⟨begin', hbegan', hpast⟩ := h.past
  cases hbegan.symm.trans hbegan'
  rcases hpast with hpast | ⟨end_, huntil, hpast⟩
  · exact Nat.not_le_of_lt hburst hpast
  · exact Nat.not_le_of_lt (hlease end_ huntil) hpast

/-- What an update does (module doc). -/
inductive Updated (gate : AudioTransmitGate) (serial : UInt64) (now : Instant) :
    Bool → Bool × AudioTransmitGate → Prop
  | stale (pressed : Bool) : serial = 0 ∨ serial < gate.serial →
      Updated gate serial now pressed (false, gate)
  | released : serial ≠ 0 → gate.serial ≤ serial →
      Updated gate serial now false (true, { serial, began := none, until_ := none, blocked := false })
  | blocked : serial ≠ 0 → gate.serial < serial → gate.blocked = true →
      Updated gate serial now true (false, { gate with serial, began := none, until_ := none })
  | pressed : gate.serial < serial → gate.blocked = false →
      Updated gate serial now true (true,
        { serial, began := some now, until_ := some (now + fromMillis 750), blocked := false })
  | idle : serial ≠ 0 → serial = gate.serial → gate.blocked = true ∨ gate.began = none →
      Updated gate serial now true (false, gate)
  | expired : serial ≠ 0 → serial = gate.serial → gate.Expired now →
      Updated gate serial now true (false, { gate with blocked := true, until_ := none })
  | renewed (begin : Instant) : serial ≠ 0 → serial = gate.serial → gate.blocked = false →
      gate.began = some begin → now < begin + fromSecs 10 →
      (∀ end_, gate.until_ = some end_ → now < end_) →
      Updated gate serial now true (true, { gate with until_ := some (now + fromMillis 750) })

/-- The burst is over ten seconds after its press. -/
theorem burst_over (begin now : Instant) :
    fromSecs 10 ≤ now - begin ↔ begin + fromSecs 10 ≤ now := by
  have h : ∀ a b c : Nat, 0 < a → (a ≤ c - b ↔ b + a ≤ c) := by omega
  exact h _ begin now (by decide)

theorem renew_updated {gate : AudioTransmitGate} {serial : UInt64} (hz : serial ≠ 0)
    (hs : serial = gate.serial) (now : Instant) :
    Updated gate serial now true (gate.renew now) := by
  unfold renew
  split
  · rename_i h
    exact .idle hz hs (by simpa using h)
  · rename_i h
    simp only [Bool.or_eq_true, not_or, Bool.not_eq_true, Option.isNone_eq_false_iff,
      Option.isSome_iff_exists] at h
    obtain ⟨hopen, begin, hbegan⟩ := h
    have hburst := burst_over begin now
    split
    · rename_i hpast
      refine .expired hz hs ⟨hopen, begin, hbegan, ?_⟩
      simpa [hbegan, hburst, Option.any_eq_true] using hpast
    · rename_i hlive
      simp only [hbegan, Option.any_some, Bool.or_eq_true, decide_eq_true_eq, hburst, not_or,
        Option.any_eq_true, not_exists, not_and] at hlive
      refine .renewed begin hz hs hopen hbegan (Nat.lt_of_not_le hlive.1) fun end_ hend => ?_
      exact Nat.lt_of_not_le (hlive.2 end_ hend)

theorem update_updated (gate : AudioTransmitGate) (serial : UInt64) (pressed : Bool)
    (now : Instant) : Updated gate serial now pressed (gate.update serial pressed now) := by
  unfold update
  split
  · exact .stale pressed ‹_›
  · rename_i hcurrent
    obtain ⟨hz, hle⟩ := not_or.1 hcurrent
    rw [UInt64.not_lt] at hle
    split
    · rename_i hgreater
      cases pressed with
      | false => exact .released hz hle
      | true =>
        dsimp only
        split
        · contradiction
        · split
          · exact .blocked hz hgreater ‹_›
          · have hopen : gate.blocked = false := by simpa using ‹¬ gate.blocked = true›
            have h : AudioTransmitGate.renew { gate with
                serial, began := some now, until_ := none } now = (true,
                  { serial, began := some now, until_ := some (now + fromMillis 750),
                    blocked := false }) := by
              simp [renew, hopen, fromSecs]
            exact h ▸ .pressed hgreater hopen
    · rename_i hgreater
      have hs : serial = gate.serial := UInt64.le_antisymm (UInt64.not_lt.1 hgreater) hle
      cases pressed with
      | false => exact hs ▸ .released hz hle
      | true => exact renew_updated hz hs now

/-- What a look at the gate does (module doc). -/
inductive Allowed (gate : AudioTransmitGate) (now : Instant) : Bool × AudioTransmitGate → Prop
  | allowed (begin end_ : Instant) : gate.blocked = false → gate.began = some begin →
      now < begin + fromSecs 10 → gate.until_ = some end_ → now < end_ →
      Allowed gate now (true, gate)
  | refused (begin : Instant) : gate.began = some begin →
      (gate.blocked = false → ∀ end_, gate.until_ = some end_ → gate.Expired now) →
      Allowed gate now (false, { gate with blocked := true, until_ := none })
  | idle : gate.began = none → Allowed gate now (false, gate)

theorem allows_allowed (gate : AudioTransmitGate) (now : Instant) :
    Allowed gate now (gate.allows now) := by
  unfold allows
  cases hbegan : gate.began with
  | none => simpa using .idle hbegan
  | some begin =>
    have hburst := not_congr (burst_over begin now)
    rw [Nat.not_le, Nat.not_le] at hburst
    dsimp only [Option.any_some, Option.isSome_some]
    cases hallowed : (!gate.blocked && gate.until_.any (now < ·) &&
        decide (now - begin < fromSecs 10)) with
    | true =>
      simp only [Bool.and_eq_true, Bool.not_eq_true', Option.any_eq_true, decide_eq_true_eq,
        hburst] at hallowed
      obtain ⟨⟨hopen, end_, huntil, hend⟩, hbegin⟩ := hallowed
      simpa using .allowed begin end_ hopen hbegan hbegin huntil hend
    | false =>
      have hrefused : Allowed gate now (false, { gate with blocked := true, until_ := none }) := by
        refine .refused begin hbegan fun hopen end_ huntil => ⟨hopen, begin, hbegan, ?_⟩
        simp only [hopen, huntil, Bool.not_false, Bool.true_and, Option.any_some,
          Bool.and_eq_false_iff, decide_eq_false_iff_not, hburst, Nat.not_lt] at hallowed
        exact hallowed.symm.imp_right fun hend => ⟨end_, huntil, hend⟩
      simpa [hbegan] using hrefused

/-! ## What one call leaves -/

/-- The gate after a call. -/
abbrev next (gate : AudioTransmitGate) (call : GateCall) : AudioTransmitGate := (gate.step call).1

theorem run_concat (gate : AudioTransmitGate) (calls : List GateCall) (call : GateCall) :
    run step gate (calls ++ [call]) = (run step gate calls).next call := by simp

/-- The call is an update that the gate accepts. -/
def accepts (gate : AudioTransmitGate) : GateCall → Bool
  | .update serial pressed now => (gate.update serial pressed now).1
  | _ => false

/-- The call finds that the press has run out. -/
def Observes (gate : AudioTransmitGate) : GateCall → Prop
  | .update serial pressed now =>
    serial ≠ 0 ∧ serial = gate.serial ∧ pressed = true ∧ gate.Expired now
  | .allows now => gate.Expired now
  | .close => False

/-- The call presses, or renews the press of, a serial. -/
def presses (serial : UInt64) : GateCall → Bool
  | .update serial' true _ => serial' = serial
  | _ => false

def releases : GateCall → Bool
  | .update _ false _ => true
  | _ => false

/-- A close takes the last serial. -/
theorem le_close_serial (gate : AudioTransmitGate) (serial : UInt64) :
    serial ≤ gate.close.serial := by
  have h := serial.toNat_lt
  rw [UInt64.le_iff_toNat_le, close]
  simp only [UInt64.toNat_ofNat', UInt64.size]
  omega

theorem serial_le_next (gate : AudioTransmitGate) (call : GateCall) :
    gate.serial ≤ (gate.next call).serial := by
  cases call with
  | update serial pressed now =>
    have h := update_updated gate serial pressed now
    generalize hresult : gate.update serial pressed now = result at h
    rw [next, step, hresult]
    cases h with
    | released _ hle => exact hle
    | blocked _ hlt => exact UInt64.le_of_lt hlt
    | pressed hlt => exact UInt64.le_of_lt hlt
    | _ => exact UInt64.le_refl _
  | allows now =>
    have h := allows_allowed gate now
    generalize hresult : gate.allows now = result at h
    rw [next, step, hresult]
    cases h <;> exact UInt64.le_refl _
  | close => exact gate.le_close_serial gate.serial

theorem serial_le_run (gate : AudioTransmitGate) (calls : List GateCall) :
    gate.serial ≤ (run step gate calls).serial := by
  induction calls generalizing gate with
  | nil => exact UInt64.le_refl _
  | cons call calls ih => exact UInt64.le_trans (serial_le_next gate call) (ih _)

/-- An accepted press has the gate's serial from then on. -/
theorem serial_next_of_press {gate : AudioTransmitGate} {serial : UInt64} {now : Instant}
    (h : gate.accepts (.update serial true now) = true) :
    (gate.next (.update serial true now)).serial = serial := by
  have hupdate := update_updated gate serial true now
  generalize hresult : gate.update serial true now = result at hupdate
  rw [accepts, hresult] at h
  rw [next, step, hresult]
  cases hupdate with
  | pressed => rfl
  | renewed _ _ hs => exact hs.symm
  | _ => cases h

/-- The gate holds no press that is still good. -/
theorem next_blocked {gate : AudioTransmitGate} {call : GateCall} (hblocked : gate.blocked = true)
    (hrelease : (gate.accepts call && releases call) = false) :
    (gate.next call).blocked = true := by
  cases call with
  | update serial pressed now =>
    have h := update_updated gate serial pressed now
    generalize hresult : gate.update serial pressed now = result at h
    rw [accepts, hresult] at hrelease
    rw [next, step, hresult]
    cases h with
    | released => cases hrelease
    | pressed _ hopen => cases hblocked.symm.trans hopen
    | expired => rfl
    | _ => exact hblocked
  | allows now =>
    have h := allows_allowed gate now
    generalize hresult : gate.allows now = result at h
    rw [next, step, hresult]
    cases h with
    | refused => rfl
    | _ => exact hblocked
  | close => rfl

/-- An observed expiry blocks the gate. -/
theorem next_blocked_of_observes {gate : AudioTransmitGate} {call : GateCall}
    (h : gate.Observes call) : (gate.next call).blocked = true := by
  cases call with
  | update serial pressed now =>
    obtain ⟨hz, rfl, rfl, hexpired⟩ := h
    have h := update_updated gate gate.serial true now
    generalize hresult : gate.update gate.serial true now = result at h
    rw [next, step, hresult]
    cases h with
    | stale _ hstale => exact absurd (hstale.resolve_left hz) (UInt64.lt_irrefl _)
    | blocked _ hlt => exact absurd hlt (UInt64.lt_irrefl _)
    | pressed hlt => exact absurd hlt (UInt64.lt_irrefl _)
    | idle _ _ hidle =>
      obtain ⟨begin, hbegan, -⟩ := hexpired.past
      rcases hidle with hblocked | hnone
      · cases hexpired.open_.symm.trans hblocked
      · cases hnone.symm.trans hbegan
    | expired => rfl
    | renewed begin _ _ _ hbegan hburst hlease =>
      exact (hexpired.not_running hbegan hburst hlease).elim
  | allows now =>
    have hexpired : gate.Expired now := h
    have h := allows_allowed gate now
    generalize hresult : gate.allows now = result at h
    rw [next, step, hresult]
    cases h with
    | allowed begin end_ _ hbegan hburst huntil hlease =>
      refine (hexpired.not_running hbegan hburst fun end_ huntil' => ?_).elim
      cases huntil.symm.trans huntil'
      exact hlease
    | refused => rfl
    | idle hnone =>
      obtain ⟨begin, hbegan, -⟩ := hexpired.past
      cases hnone.symm.trans hbegan
  | close => exact h.elim

/-! ## A history of calls -/

/-- The call does nothing to the press of `serial`. -/
structure Undisturbed (serial : UInt64) (gate : AudioTransmitGate) (call : GateCall) : Prop where
  unreleased : (gate.accepts call && releases call) = false
  current : ∀ serial' pressed now, call = .update serial' pressed now → serial' ≤ serial
  notClosed : call ≠ .close
  unexpired : ¬ gate.Observes call

/-- `serial` was first pressed at `time`, and nothing has been done to that press since. -/
def Pressed (calls : List GateCall) (serial : UInt64) (time : Instant) : Prop :=
  ∃ before after, calls = before ++ .update serial true time :: after ∧
    (run step new before).accepts (.update serial true time) = true ∧
    Admits (fun gate call => ¬ (gate.accepts call = true ∧ presses serial call = true)) next new
      before ∧
    Admits (Undisturbed serial) next (run step new (before ++ [.update serial true time])) after

/-- A press or a renewal of `serial` was accepted at `time`. -/
def Renewed (calls : List GateCall) (serial : UInt64) (time : Instant) : Prop :=
  ∃ before after, calls = before ++ .update serial true time :: after ∧
    (run step new before).accepts (.update serial true time) = true

/-- The lease on which audio of `serial` is let out at `now` (module doc). -/
structure Leased (calls : List GateCall) (serial : UInt64) (now : Instant) : Prop where
  pressed : ∃ time, Pressed calls serial time ∧ time ≤ now ∧ now < time + fromSecs 10
  renewed : ∃ time, Renewed calls serial time ∧ time ≤ now ∧ now < time + fromMillis 750

/-- Below a serial, it has not been pressed. -/
theorem not_pressed_of_lt {serial : UInt64} {gate : AudioTransmitGate} {calls : List GateCall}
    (h : (run step gate calls).serial < serial) :
    Admits (fun gate call => ¬ (gate.accepts call = true ∧ presses serial call = true)) next gate
      calls := by
  induction calls generalizing gate with
  | nil => trivial
  | cons call calls ih =>
    refine ⟨?_, ih h⟩
    rintro ⟨haccepts, hpresses⟩
    cases call with
    | update serial' pressed now =>
      cases pressed with
      | true =>
        obtain rfl : serial' = serial := by simpa [presses] using hpresses
        have hle := serial_le_run (gate.next (.update serial' true now)) calls
        rw [serial_next_of_press haccepts] at hle
        exact UInt64.not_le.2 h hle
      | false => cases hpresses
    | _ => cases hpresses

theorem Pressed.concat {calls : List GateCall} {serial : UInt64} {time : Instant} {call : GateCall}
    (h : Pressed calls serial time) (hcall : Undisturbed serial (run step new calls) call) :
    Pressed (calls ++ [call]) serial time := by
  obtain ⟨before, after, rfl, haccepts, hfirst, hsince⟩ := h
  refine ⟨before, after ++ [call], by simp, haccepts, hfirst, ?_⟩
  rw [admits_concat, ← run_eq_foldl]
  refine ⟨hsince, ?_⟩
  rwa [← run_append, List.append_assoc, List.singleton_append]

theorem Renewed.concat {calls : List GateCall} {serial : UInt64} {time : Instant}
    (h : Renewed calls serial time) (call : GateCall) : Renewed (calls ++ [call]) serial time := by
  obtain ⟨before, after, rfl, haccepts⟩ := h
  exact ⟨before, after ++ [call], by simp, haccepts⟩

/-- A press that is not blocked is on record, and so is its last renewal. -/
structure Held (calls : List GateCall) (gate : AudioTransmitGate) (begin : Instant) : Prop where
  pressed : Pressed calls gate.serial begin
  renewed : ∃ time, gate.until_ = some (time + fromMillis 750) ∧ Renewed calls gate.serial time

theorem Held.concat {calls : List GateCall} {begin : Instant} {call : GateCall}
    (h : Held calls (run step new calls) begin)
    (hcall : Undisturbed (run step new calls).serial (run step new calls) call) :
    Held (calls ++ [call]) (run step new calls) begin :=
  ⟨h.pressed.concat hcall, h.renewed.imp fun _ h => ⟨h.1, h.2.concat call⟩⟩

/-- An accepted press keeps what is on record, or starts it. -/
theorem held_update {calls : List GateCall} {serial : UInt64} {pressed : Bool} {now begin : Instant}
    (hheld : ∀ begin, (run step new calls).began = some begin →
      (run step new calls).blocked = false → Held calls (run step new calls) begin)
    (hbegan : ((run step new calls).next (.update serial pressed now)).began = some begin)
    (hopen : ((run step new calls).next (.update serial pressed now)).blocked = false) :
    Held (calls ++ [.update serial pressed now])
      ((run step new calls).next (.update serial pressed now)) begin := by
  have hupdate := update_updated (run step new calls) serial pressed now
  generalize hgate : run step new calls = gate at hheld hbegan hopen hupdate ⊢
  generalize hresult : gate.update serial pressed now = result at hupdate
  have hnext : gate.next (.update serial pressed now) = result.2 := by rw [next, step, hresult]
  have haccepts : gate.accepts (.update serial pressed now) = result.1 := by rw [accepts, hresult]
  rw [hnext] at hbegan hopen ⊢
  cases hupdate with
  | stale _ hstale =>
    have hcall : Undisturbed gate.serial gate (.update serial pressed now) := by
      refine ⟨by rw [haccepts]; rfl, ?_, nofun, ?_⟩
      · rintro _ _ _ ⟨⟩
        rcases hstale with rfl | hlt
        · exact UInt64.zero_le
        · exact UInt64.le_of_lt hlt
      · rintro ⟨hz, rfl, -⟩
        exact UInt64.lt_irrefl _ (hstale.resolve_left hz)
    subst hgate
    exact (hheld begin hbegan hopen).concat hcall
  | released => cases hbegan
  | blocked => cases hbegan
  | pressed hlt _ =>
    cases hbegan
    subst hgate
    exact ⟨⟨calls, [], rfl, haccepts, not_pressed_of_lt hlt, trivial⟩, now, rfl, calls, [], rfl,
      haccepts⟩
  | idle _ _ hidle =>
    rcases hidle with hblocked | hnone
    · cases hopen.symm.trans hblocked
    · cases hnone.symm.trans hbegan
  | expired => cases hopen
  | renewed _ _ hs _ hbegan' hburst hlease =>
    subst hs
    have hcall : Undisturbed gate.serial gate (.update gate.serial true now) := by
      refine ⟨Bool.and_false _, ?_, nofun, ?_⟩
      · rintro _ _ _ ⟨⟩
        exact UInt64.le_refl _
      · rintro ⟨-, -, -, hexpired⟩
        exact hexpired.not_running hbegan' hburst hlease
    subst hgate
    exact ⟨(hheld begin hbegan hopen).pressed.concat hcall, now, rfl, calls, [], rfl, haccepts⟩

/-- **What a gate holds is on record.** -/
theorem run_held (calls : List GateCall) (begin : Instant)
    (hbegan : (run step new calls).began = some begin)
    (hopen : (run step new calls).blocked = false) : Held calls (run step new calls) begin := by
  induction calls using List.reverseRecOn generalizing begin with
  | nil => cases hbegan
  | append_singleton calls call ih =>
    rw [run_concat] at hbegan hopen ⊢
    cases call with
    | update serial pressed now => exact held_update ih hbegan hopen
    | allows now =>
      have h := allows_allowed (run step new calls) now
      generalize hresult : (run step new calls).allows now = result at h
      rw [next, step, hresult] at hbegan hopen ⊢
      cases h with
      | allowed begin' end_ _ hbegan' hburst huntil hlease =>
        refine (ih begin hbegan hopen).concat ⟨rfl, nofun, nofun, fun hexpired => ?_⟩
        refine hexpired.not_running hbegan' hburst fun end_ huntil' => ?_
        cases huntil.symm.trans huntil'
        exact hlease
      | refused => cases hopen
      | idle hnone => cases hnone.symm.trans hbegan
    | close => cases hbegan

/-! ## The law -/

/-- A blocked gate stays blocked until a release. -/
theorem run_blocked {gate : AudioTransmitGate} {calls : List GateCall}
    (h : Admits (fun gate call => ¬ (gate.accepts call = true ∧ releases call = true)) next gate
      calls) (hblocked : gate.blocked = true) : (run step gate calls).blocked = true := by
  rw [run_eq_foldl]
  refine h.invariant (I := fun gate => gate.blocked = true) (fun gate call hgate hrelease => ?_)
    hblocked
  exact next_blocked hgate (by simpa using hrelease)

theorem blocked_refuses {gate : AudioTransmitGate} (h : gate.blocked = true) (serial : UInt64)
    (now : Instant) : (gate.update serial true now).1 = false ∧ (gate.allows now).1 = false := by
  constructor
  · have hupdate := update_updated gate serial true now
    generalize gate.update serial true now = result at hupdate
    cases hupdate with
    | pressed _ hopen => cases h.symm.trans hopen
    | renewed _ _ _ hopen => cases h.symm.trans hopen
    | _ => rfl
  · simp [allows, h]

/-- What a close leaves, whatever is called later. -/
structure Closed (gate : AudioTransmitGate) : Prop where
  last : ∀ serial, serial ≤ gate.serial
  released : gate.began = none

theorem close_closed (gate : AudioTransmitGate) : Closed gate.close :=
  ⟨gate.le_close_serial, rfl⟩

theorem Closed.next {gate : AudioTransmitGate} (h : Closed gate) (call : GateCall) :
    Closed (gate.next call) := by
  have hlast : ∀ serial, serial ≤ (gate.next call).serial :=
    fun serial => UInt64.le_trans (h.last serial) (serial_le_next gate call)
  refine ⟨hlast, ?_⟩
  cases call with
  | update serial pressed now =>
    have hupdate := update_updated gate serial pressed now
    generalize hresult : gate.update serial pressed now = result at hupdate
    rw [AudioTransmitGate.next, step, hresult]
    cases hupdate with
    | released => rfl
    | blocked => rfl
    | pressed hlt => exact absurd (h.last serial) (UInt64.not_le.2 hlt)
    | _ => exact h.released
  | allows now =>
    have hallows := allows_allowed gate now
    generalize hresult : gate.allows now = result at hallows
    rw [AudioTransmitGate.next, step, hresult]
    cases hallows <;> exact h.released
  | close => rfl

theorem Closed.refuses {gate : AudioTransmitGate} (h : Closed gate) (now : Instant) :
    (gate.allows now).1 = false := by
  simp [allows, h.released]

/-- **The lease law of the push-to-talk gate.** -/
theorem lease_law (calls : List GateCall) :
    let gate := run step new calls
    (∀ now, (∀ serial pressed time, .update serial pressed time ∈ calls → time ≤ now) →
      (gate.allows now).1 = true → Leased calls gate.serial now) ∧
    (∀ serial pressed now, serial = 0 ∨ serial < gate.serial →
      gate.update serial pressed now = (false, gate)) ∧
    (∀ before call after, calls = before ++ call :: after → Observes (run step new before) call →
      Admits (fun gate call => ¬ (gate.accepts call = true ∧ releases call = true)) next
        (run step new (before ++ [call])) after →
      ∀ serial now, (gate.update serial true now).1 = false ∧ (gate.allows now).1 = false) ∧
    (.close ∈ calls → ∀ now, (gate.allows now).1 = false) := by
  intro gate
  refine ⟨fun now htimes hallows => ?_, fun serial pressed now hstale => ?_, ?_, ?_⟩
  · have h := allows_allowed gate now
    generalize gate.allows now = result at h hallows
    cases h with
    | refused => cases hallows
    | idle => cases hallows
    | allowed begin end_ hopen hbegan hburst huntil hlease =>
      obtain ⟨hpressed, time, huntil', hrenewed⟩ := run_held calls begin hbegan hopen
      cases huntil.symm.trans huntil'
      have hpast : ∀ time, Renewed calls gate.serial time → time ≤ now := by
        rintro time ⟨before, after, hcalls, -⟩
        exact htimes gate.serial true time (by simp [hcalls])
      have hbegin : Renewed calls gate.serial begin := by
        obtain ⟨before, after, hcalls, haccepts, -⟩ := hpressed
        exact ⟨before, after, hcalls, haccepts⟩
      exact ⟨⟨begin, hpressed, hpast begin hbegin, hburst⟩, time, hrenewed, hpast time hrenewed,
        hlease⟩
  · rw [update, if_pos hstale]
  · rintro before call after rfl hobserves hrelease serial now
    have hblocked := next_blocked_of_observes hobserves
    rw [← run_concat] at hblocked
    have hgate : gate.blocked = true := by
      have h := run_blocked hrelease hblocked
      rwa [← run_append, List.append_assoc, List.singleton_append] at h
    exact blocked_refuses hgate serial now
  · intro hclose now
    obtain ⟨before, after, rfl⟩ := List.append_of_mem hclose
    have hclosed : Closed gate := by
      have h : gate = run step (run step new before).close after := by simp [gate, step]
      rw [h]
      exact run_invariant step (close_closed _) (fun gate call h => h.next call) after
    exact hclosed.refuses now

/-- A press that is renewed after 600 ms lets audio out after a second. -/
theorem lease_law_renewed :
    Leased [.update 1 true 0, .update 1 true (fromMillis 600)] 1 (fromMillis 1000) := by
  refine (lease_law [.update 1 true 0, .update 1 true (fromMillis 600)]).1 _ ?_ (by decide)
  intro serial pressed time htime
  simp only [List.mem_cons, GateCall.update.injEq, List.not_mem_nil, or_false] at htime
  rcases htime with ⟨-, -, rfl⟩ | ⟨-, -, rfl⟩ <;> decide

end Lxst.Telephony.AudioTransmitGate
