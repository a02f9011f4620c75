import Mathlib.Algebra.Group.Nat.Defs
import RsLxst.Embedded.Proof.Session

/-!
# Audio completions

An embedder opens audio for one generation and reports back with `audio_ready`. An adopted profile
counts as a change (`adopts`); each makes the next generation and takes readiness away
(`step_adopts`), and nothing else makes one ready but its completion (`trans_not_adopts`). While
fewer than 2^32 changes have been made no two generations are the same,
so a completion can only enable the media it was made for (`stale_audio_fenced`).
-/

set_option autoImplicit false

namespace Lxst.Embedded.Session

open Machine

/-- The operation is a profile signal that the session adopts. -/
def adopts (s : Session) : Op → Bool
  | .receiveSignal (.preferredProfile profile) _ =>
    s.ended.isNone && s.linked && s.verified && s.config.allowed.contains profile &&
      s.call.profile ≠ some profile
  | _ => false

/-- The adopted profile changes of a run. -/
def profileChanges (s : Session) (ops : List Op) : Nat := occurrences step adopts s ops

/-- The generation that the `n`-th profile change creates, `1` before the first. -/
def generation (n : Nat) : UInt32 := UInt32.ofNat (1 + n)

theorem generation_succ (n : Nat) : generation (n + 1) = generation n + 1 := by
  simp [generation, ← Nat.add_assoc]

/-- Fewer than 2^32 changes make different generations. -/
theorem generation_inj {m n : Nat} (hm : m < 2 ^ 32) (hn : n < 2 ^ 32)
    (h : generation m = generation n) : m = n := by
  have hnat := congrArg UInt32.toNat h
  simp only [generation, UInt32.toNat_ofNat'] at hnat
  omega

/-! ## One operation -/

theorem adopts_receiveProfile {s : Session} {p : Profile} {now : UInt64} :
    s.adopts (.receiveSignal (.preferredProfile p) now) = true ↔
      s.Open ∧ s.config.allowed.contains p = true ∧ s.call.profile ≠ some p := by
  simp only [adopts, Bool.and_eq_true, Option.isNone_iff_eq_none, decide_eq_true_eq]
  constructor
  · rintro ⟨⟨⟨⟨he, hl⟩, hv⟩, hc⟩, hp⟩
    exact ⟨⟨he, hl, hv⟩, hc, hp⟩
  · rintro ⟨⟨he, hl, hv⟩, hc, hp⟩
    exact ⟨⟨⟨⟨he, hl⟩, hv⟩, hc⟩, hp⟩

/-- A profile change makes the next generation, which is not ready. -/
theorem step_adopts {s : Session} {op : Op} (h : s.adopts op = true) :
    (s.step op).1.audioGeneration = s.audioGeneration + 1 ∧ (s.step op).1.ready = false := by
  rw [adopts.eq_def] at h
  split at h
  · rename_i p now
    have hopen : s.adopts (.receiveSignal (.preferredProfile p) now) = true := h
    obtain ⟨ho, hc, hp⟩ := adopts_receiveProfile.1 hopen
    rw [step, receiveProfile_adopted ho hc hp]
    exact ⟨rfl, rfl⟩
  · cases h

/-- Any other operation keeps the generation, and only its completion makes it ready. -/
theorem trans_not_adopts {s s' : Session} {op : Op} {es : Events} (h : Trans s op s' es)
    (hn : s.adopts op = false) : s'.audioGeneration = s.audioGeneration ∧
      (s'.ready = true → s.ready = true ∨ op = .audioReady s.audioGeneration true) := by
  cases h with
  | adopted p now ho hc hp => cases hn.symm.trans (adopts_receiveProfile.2 ⟨ho, hc, hp⟩)
  | ended _ reason he => rw [end_eq he]; exact ⟨rfl, nofun⟩
  | audioOpened g he hg => exact ⟨rfl, fun _ => .inr (hg ▸ rfl)⟩
  | ticked now he =>
    obtain ⟨_, _, _, -, ht⟩ := ticked_eq s now
    rw [ht]
    exact ⟨rfl, .inl⟩
  | _ => exact ⟨rfl, .inl⟩

/-- A completion for another generation does nothing. -/
theorem audioReady_stale {s : Session} {g : UInt32} (h : g ≠ s.audioGeneration) (success : Bool) :
    s.audioReady g success = (s, []) := by
  rw [audioReady, if_pos (by simp [h])]

/-! ## A run -/

theorem profileChanges_concat (s : Session) (ops : List Op) (op : Op) :
    profileChanges s (ops ++ [op]) =
      profileChanges s ops + if (run step s ops).adopts op then 1 else 0 := by
  rw [profileChanges, occurrences_append]
  rfl

/-- The latest completion for the generation of the latest profile change. -/
def Completed (s : Session) (ops : List Op) : Prop :=
  ∃ before after, ops = before ++ .audioReady (generation (profileChanges s ops)) true :: after ∧
    profileChanges s before = profileChanges s ops

/-- A completion stays one until the next change. -/
theorem Completed.concat {s : Session} {ops : List Op} {op : Op} (h : Completed s ops)
    (hn : (run step s ops).adopts op = false) : Completed s (ops ++ [op]) := by
  have hsame : profileChanges s (ops ++ [op]) = profileChanges s ops := by
    simp [profileChanges_concat, hn]
  obtain ⟨before, after, hops, hchanges⟩ := h
  refine ⟨before, after ++ [op], ?_, hchanges.trans hsame.symm⟩
  rw [hsame]
  nth_rewrite 1 [hops]
  rw [List.append_assoc, List.cons_append]

/-- What a run of a new session knows of its generation. -/
theorem run_generation {role : CallRole} {config : SessionConfig} {now : UInt64} {s : Session}
    (h : new role config now = .ok s) (ops : List Op) :
    (run step s ops).audioGeneration = generation (profileChanges s ops) ∧
      ((run step s ops).ready = true → Completed s ops) := by
  obtain ⟨-, hnew⟩ := new_eq h
  induction ops using List.reverseRecOn with
  | nil =>
    rw [run_nil, hnew]
    exact ⟨rfl, nofun⟩
  | append_singleton ops op ih =>
    obtain ⟨hgeneration, hcompleted⟩ := ih
    rw [run_append, run_cons, run_nil]
    cases hadopts : (run step s ops).adopts op with
    | true =>
      obtain ⟨hnext, hready⟩ := step_adopts hadopts
      rw [hnext, hready, hgeneration, profileChanges_concat, hadopts]
      exact ⟨(generation_succ _).symm, nofun⟩
    | false =>
      obtain ⟨hsame, hready⟩ := trans_not_adopts (step_trans (run step s ops) op) hadopts
      have hchanges : profileChanges s (ops ++ [op]) = profileChanges s ops := by
        simp [profileChanges_concat, hadopts]
      refine ⟨by rw [hsame, hgeneration, hchanges], fun hnow => ?_⟩
      rcases hready hnow with hbefore | rfl
      · exact (hcompleted hbefore).concat hadopts
      · exact ⟨ops, [], by rw [hchanges, hgeneration], hchanges.symm⟩

/-- **Stale audio completions never enable media.** -/
theorem stale_audio_fenced {role : CallRole} {config : SessionConfig} {now : UInt64} {s : Session}
    (h : new role config now = .ok s) (ops : List Op) (hfew : profileChanges s ops < 2 ^ 32) :
    ((run step s ops).mediaReady = true → Completed s ops) ∧
      (∀ g success, g ≠ generation (profileChanges s ops) →
        (run step s ops).audioReady g success = (run step s ops, [])) ∧
      ∀ n < profileChanges s ops, ∀ success,
        (run step s ops).audioReady (generation n) success = (run step s ops, []) := by
  obtain ⟨hgeneration, hready⟩ := run_generation h ops
  have hstale : ∀ g success, g ≠ generation (profileChanges s ops) →
      (run step s ops).audioReady g success = (run step s ops, []) :=
    fun g success hg => audioReady_stale (hgeneration ▸ hg) success
  refine ⟨fun hmedia => hready (mediaReady_iff.1 hmedia).2.2.2.1, hstale, fun n hn success => ?_⟩
  refine hstale _ success fun hsame => ?_
  exact Nat.ne_of_lt hn (generation_inj (Nat.lt_trans hn hfew) hfew hsame)

/-- A caller switched before it is established: the first completion is stale, whatever it says. -/
theorem stale_audio_fenced_switched : ∃ s₀ ops,
    new .outgoing ⟨.union .CODEC2 .OPUS_MEDIUM, .bandwidthLow, true, true⟩ 0 = .ok s₀ ∧
    profileChanges s₀ ops = 1 ∧ (run step s₀ ops).mediaReady = true ∧ Completed s₀ ops ∧
    (run step s₀ ops).audioReady 1 false = (run step s₀ ops, []) := by
  have h : new .outgoing ⟨.union .CODEC2 .OPUS_MEDIUM, .bandwidthLow, true, true⟩ 0 = .ok _ := rfl
  obtain ⟨hmedia, -, hstale⟩ := stale_audio_fenced h [.linkEstablished, .peerVerified 0,
    .receiveSignal (.status .available) 0, .receiveSignal (.status .ringing) 0,
    .receiveSignal (.status .connecting) 0, .receiveSignal (.preferredProfile .qualityMedium) 0,
    .receiveSignal (.status .established) 0, .audioReady 1 true, .audioReady 2 true] (by decide)
  exact ⟨_, _, h, by decide, by decide, hmedia (by decide), hstale 0 (by decide) false⟩

end Lxst.Embedded.Session
