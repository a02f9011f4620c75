import RsLxst.Lib.Machine
import RsLxst.Lib.TwoStep
import RsLxst.Telephony.Proof.EndpointRuns
import RsLxst.Telephony.Proof.Load

/-!
# The cleanup of outgoing links

The cleanup of a closed outgoing link is a job of two messages, and the transport queue may refuse
each for now. `CleanupStep` is what a run of the endpoint does to the waiting cleanups: it closes a
link (`finish_outgoing_link_locally`), retries (`flush_outgoing_cleanup`) or leaves them alone.
Both methods take steps of the job machine (`finish_steps`, `flush_steps`), which gives the account
of a whole run (`cleanup_kept`). Every call on the endpoint is such a run
(`EndpointCall.cleanup_moves`).
-/

set_option autoImplicit false

namespace Lxst.Telephony

open Relation (ReflTransGen)

variable {rns : Rns}

/-! ## The messages of a cleanup -/

def unbindMessage (linkId : LinkId) : TransportMessage := .unbindLinkEndpoint linkId .initiator

def deregisterMessage (linkId : LinkId) : TransportMessage := .deregisterDestination linkId

namespace PendingOutgoingCleanup

/-- The messages that it has still to send. -/
def remaining (self : PendingOutgoingCleanup) : List TransportMessage :=
  if self.unbindSent then [deregisterMessage self.linkId]
  else [unbindMessage self.linkId, deregisterMessage self.linkId]

theorem deregister_mem_remaining (self : PendingOutgoingCleanup) :
    deregisterMessage self.linkId ∈ self.remaining := by
  unfold remaining
  split <;> simp

def job (self : PendingOutgoingCleanup) : LinkId × Bool := (self.linkId, self.unbindSent)

end PendingOutgoingCleanup

abbrev jobs (cleanups : List PendingOutgoingCleanup) : List (LinkId × Bool) :=
  cleanups.map PendingOutgoingCleanup.job

abbrev JobStep := TwoStep.Step unbindMessage deregisterMessage

theorem keys_jobs (cleanups : List PendingOutgoingCleanup) :
    TwoStep.keys (jobs cleanups) = cleanups.map (·.linkId) := by
  simp [TwoStep.keys, jobs, PendingOutgoingCleanup.job]

theorem deregisterMessage_injective : Function.Injective deregisterMessage := by
  intro a b h
  exact TransportMessage.deregisterDestination.inj h

theorem unbindMessage_ne (a b : LinkId) : unbindMessage a ≠ deregisterMessage b := nofun

namespace BoundedQueue

variable {α : Type} (q : BoundedQueue α)

theorem push_push (xs ys : List α) : (q.push xs).push ys = q.push (xs ++ ys) := by
  simp [push]

theorem push_free (xs : List α) : (q.push xs).free = q.free - xs.length := by
  simp only [free, push, List.length_append]
  omega

theorem push_drop (xs : List α) : (q.push xs).queue.drop q.queue.length = xs := by
  simp [push]

theorem trySend_push_full (h : q.closed = false) (hf : q.free = 0) (a : α) :
    q.trySend a = (.error .full, q.push []) := by
  rw [trySend_full h hf, push_nil]

theorem trySend_push_free (h : q.closed = false) (hf : q.free ≠ 0) (a : α) :
    q.trySend a = (.ok (), q.push [a]) := trySend_free h hf a

end BoundedQueue

/-! ## Advancing a cleanup -/

namespace TelephonyRnsEndpoint

variable {self : TelephonyRnsEndpoint rns}

/-- With an open queue a cleanup is finished, or stalls before its next message. -/
theorem tryAdvanceOutgoingCleanup_cases (hopen : self.transport.closed = false)
    (cleanup : PendingOutgoingCleanup) :
    (cleanup.remaining.length ≤ self.transport.free ∧
      tryAdvanceOutgoingCleanup cleanup self = ((true, { cleanup with unbindSent := true }),
        { self with transport := self.transport.push cleanup.remaining })) ∨
    (cleanup.unbindSent = false ∧ self.transport.free = 1 ∧
      tryAdvanceOutgoingCleanup cleanup self = ((false, { cleanup with unbindSent := true }),
        { self with transport := self.transport.push [unbindMessage cleanup.linkId] })) ∨
    self.transport.free = 0 ∧
      tryAdvanceOutgoingCleanup cleanup self = ((false, cleanup),
        { self with transport := self.transport.push [] }) := by
  obtain ⟨linkId, unbindSent⟩ := cleanup
  by_cases hfull : self.transport.free = 0
  · right
    right
    refine ⟨hfull, ?_⟩
    cases unbindSent with
    | true =>
      simp [tryAdvanceOutgoingCleanup, BoundedQueue.trySend_push_full _ hopen hfull]
    | false =>
      simp [tryAdvanceOutgoingCleanup, BoundedQueue.trySend_push_full _ hopen hfull,
        BoundedQueue.push_nil]
  · cases unbindSent with
    | true =>
      left
      have hroom : 1 ≤ self.transport.free := Nat.pos_of_ne_zero hfull
      refine ⟨hroom, ?_⟩
      simp [tryAdvanceOutgoingCleanup, BoundedQueue.trySend_push_free _ hopen hfull,
        PendingOutgoingCleanup.remaining, deregisterMessage]
    | false =>
      have hclosed : (self.transport.push [unbindMessage linkId]).closed = false := hopen
      have hfree : (self.transport.push [unbindMessage linkId]).free = self.transport.free - 1 :=
        BoundedQueue.push_free _ _
      by_cases hone : self.transport.free = 1
      · right
        left
        refine ⟨rfl, hone, ?_⟩
        rw [hone] at hfree
        simp [tryAdvanceOutgoingCleanup, BoundedQueue.trySend_push_free _ hopen hfull,
          ← unbindMessage.eq_1, BoundedQueue.trySend_push_full _ hclosed hfree,
          BoundedQueue.push_nil]
      · left
        have hroom : (self.transport.push [unbindMessage linkId]).free ≠ 0 := by omega
        refine ⟨show 2 ≤ _ by omega, ?_⟩
        simp [tryAdvanceOutgoingCleanup, BoundedQueue.trySend_push_free _ hopen hfull,
          ← unbindMessage.eq_1, BoundedQueue.trySend_push_free _ hclosed hroom,
          BoundedQueue.push_push, PendingOutgoingCleanup.remaining, deregisterMessage]

/-- What an advanced cleanup leaves waiting. -/
def leftover (advanced : Bool × PendingOutgoingCleanup) : List PendingOutgoingCleanup :=
  if advanced.1 then [] else [advanced.2]

/-- Advancing a cleanup is steps of its job. -/
theorem tryAdvanceOutgoingCleanup_steps (hopen : self.transport.closed = false)
    (cleanup : PendingOutgoingCleanup) :
    ∃ advanced sent, tryAdvanceOutgoingCleanup cleanup self =
        (advanced, { self with transport := self.transport.push sent }) ∧
      sent <+: cleanup.remaining ∧ (advanced.1 = false → advanced.2.linkId = cleanup.linkId) ∧
      ∀ before after earlier, ReflTransGen JobStep
        (before ++ cleanup.job :: after, earlier)
        (before ++ (jobs (leftover advanced) ++ after), earlier ++ sent) := by
  obtain ⟨linkId, unbindSent⟩ := cleanup
  rcases tryAdvanceOutgoingCleanup_cases hopen ⟨linkId, unbindSent⟩ with
    ⟨-, h⟩ | ⟨rfl, -, h⟩ | ⟨-, h⟩
  · refine ⟨_, _, h, List.prefix_rfl, nofun, fun before after earlier => ?_⟩
    have hsecond (earlier : List TransportMessage) : JobStep
        (before ++ (linkId, true) :: after, earlier)
        (before ++ after, earlier ++ [deregisterMessage linkId]) := .sendSecond ..
    cases unbindSent with
    | true => exact .single (hsecond earlier)
    | false =>
      have hfirst : JobStep (before ++ (linkId, false) :: after, earlier)
          (before ++ (linkId, true) :: after, earlier ++ [unbindMessage linkId]) := .sendFirst ..
      have hboth := ReflTransGen.single hfirst |>.tail (hsecond _)
      rwa [List.append_assoc] at hboth
  · refine ⟨_, _, h, ?_, fun _ => rfl, fun before after earlier => ?_⟩
    · exact List.prefix_append [unbindMessage linkId] [deregisterMessage linkId]
    · exact .single (.sendFirst ..)
  · refine ⟨_, _, h, List.nil_prefix, fun _ => rfl, fun before after earlier => ?_⟩
    rw [List.append_nil]
    exact .refl

/-! ## Retrying -/

theorem flushCleanups_steps (cleanups : List PendingOutgoingCleanup)
    (hopen : self.transport.closed = false) :
    ∃ left sent, flushCleanups cleanups self =
        (left, { self with transport := self.transport.push sent }) ∧
      left.map (·.linkId) ⊆ cleanups.map (·.linkId) ∧
      ∀ earlier, ReflTransGen JobStep (jobs cleanups, earlier) (jobs left, earlier ++ sent) := by
  induction cleanups generalizing self with
  | nil =>
    refine ⟨[], [], ?_, List.Subset.refl _, fun earlier => ?_⟩
    · rw [BoundedQueue.push_nil]
      rfl
    · rw [List.append_nil]
  | cons cleanup rest ih =>
    obtain ⟨⟨finished, waiting⟩, sent, h, -, hlink, hsteps⟩ :=
      tryAdvanceOutgoingCleanup_steps hopen cleanup
    rw [flushCleanups_cons, h]
    cases finished with
    | false =>
      refine ⟨waiting :: rest, sent, rfl, ?_, fun earlier => hsteps [] (jobs rest) earlier⟩
      have hlink : waiting.linkId = cleanup.linkId := hlink rfl
      simp [hlink]
    | true =>
      obtain ⟨left, sent', h', hleft, hsteps'⟩ :=
        @ih { self with transport := self.transport.push sent } hopen
      refine ⟨left, sent ++ sent', ?_, ?_, fun earlier => ?_⟩
      · rw [if_pos rfl, h', BoundedQueue.push_push]
      · exact List.Subset.trans hleft (List.subset_cons_self _ _)
      · rw [← List.append_assoc]
        exact (hsteps [] (jobs rest) earlier).trans (hsteps' _)

/-- Enough free slots empty the list. -/
theorem flushCleanups_empties (cleanups : List PendingOutgoingCleanup)
    (hopen : self.transport.closed = false)
    (hroom : (cleanups.flatMap (·.remaining)).length ≤ self.transport.free) :
    (flushCleanups cleanups self).1 = [] := by
  induction cleanups generalizing self with
  | nil => rfl
  | cons cleanup rest ih =>
    rw [List.flatMap_cons, List.length_append] at hroom
    have hremaining : cleanup.remaining ≠ [] :=
      List.ne_nil_of_mem cleanup.deregister_mem_remaining
    have hpos := List.length_pos_iff.2 hremaining
    rcases tryAdvanceOutgoingCleanup_cases hopen cleanup with
      ⟨-, h⟩ | ⟨hunbind, hfree, -⟩ | ⟨hfree, -⟩
    · rw [flushCleanups_cons, h]
      apply ih
      · exact hopen
      · show _ ≤ (self.transport.push cleanup.remaining).free
        rw [BoundedQueue.push_free]
        omega
    · simp only [PendingOutgoingCleanup.remaining, hunbind] at hroom
      simp at hroom
      omega
    · omega

theorem flush_eq (self : TelephonyRnsEndpoint rns) :
    (flushOutgoingCleanup self).2 =
      { (flushCleanups self.pendingOutgoingCleanup self).2 with
        pendingOutgoingCleanup := (flushCleanups self.pendingOutgoingCleanup self).1 } := rfl

theorem flush_steps (hopen : self.transport.closed = false) :
    ∃ sent, (flushOutgoingCleanup self).2.transport = self.transport.push sent ∧
      (flushOutgoingCleanup self).2.pendingOutgoingCleanup.map (·.linkId) ⊆
        self.pendingOutgoingCleanup.map (·.linkId) ∧
      ∀ earlier, ReflTransGen JobStep (jobs self.pendingOutgoingCleanup, earlier)
        (jobs (flushOutgoingCleanup self).2.pendingOutgoingCleanup, earlier ++ sent) := by
  obtain ⟨left, sent, h, hleft, hsteps⟩ := flushCleanups_steps self.pendingOutgoingCleanup hopen
  rw [flush_eq, h]
  exact ⟨sent, rfl, hleft, hsteps⟩

/-! ## Closing a link -/

/-- What is left of the cleanup waits, unless a cleanup of the link waits already. -/
theorem finish_eq (linkId : LinkId) {advanced : Bool × PendingOutgoingCleanup}
    {sent : List TransportMessage}
    (h : tryAdvanceOutgoingCleanup ⟨linkId, false⟩ (self.without linkId) =
      (advanced, { self.without linkId with transport := self.transport.push sent })) :
    (finishOutgoingLinkLocally linkId true self).2.transport = self.transport.push sent ∧
      (finishOutgoingLinkLocally linkId true self).2.pendingOutgoingCleanup =
        if linkId ∈ self.pendingOutgoingCleanup.map (·.linkId) then self.pendingOutgoingCleanup
        else self.pendingOutgoingCleanup ++ leftover advanced := by
  show Program.wp _ (fun _ after => after.transport = self.transport.push sent ∧
    after.pendingOutgoingCleanup = _) self
  unfold finishOutgoingLinkLocally
  simp only [Program.wp_bind, Program.wp_modify, if_true]
  show Program.wp _ _ (self.without linkId)
  unfold Program.wp
  rw [h]
  obtain ⟨finished, waiting⟩ := advanced
  have hany : (self.pendingOutgoingCleanup.any (·.linkId = linkId)) =
      decide (linkId ∈ self.pendingOutgoingCleanup.map (·.linkId)) := by
    simp [List.any_eq]
  simp only [Program.modify, without, hany, leftover]
  by_cases hwaits : linkId ∈ self.pendingOutgoingCleanup.map (·.linkId)
  · simp [hwaits]
  · cases finished with
    | true => simp [hwaits]
    | false => simp [hwaits]

/-- Closing a link adds its job, unless it waits already. -/
theorem finish_steps (hopen : self.transport.closed = false) (linkId : LinkId) :
    ∃ sent added, (finishOutgoingLinkLocally linkId true self).2.transport =
        self.transport.push sent ∧
      linkId ∈ TwoStep.keys added ∧
      ((linkId, true) ∈ added → (linkId, true) ∈ jobs self.pendingOutgoingCleanup) ∧
      (finishOutgoingLinkLocally linkId true self).2.pendingOutgoingCleanup.map (·.linkId) ⊆
        self.pendingOutgoingCleanup.map (·.linkId) ++ [linkId] ∧
      ∀ earlier,
        ReflTransGen JobStep (jobs self.pendingOutgoingCleanup, earlier) (added, earlier) ∧
        ReflTransGen JobStep (added, earlier)
          (jobs (finishOutgoingLinkLocally linkId true self).2.pendingOutgoingCleanup,
            earlier ++ sent) := by
  have hopen' : (self.without linkId).transport.closed = false := hopen
  obtain ⟨advanced, sent, h, hprefix, hlink, hsteps⟩ :=
    tryAdvanceOutgoingCleanup_steps hopen' ⟨linkId, false⟩
  obtain ⟨htransport, hpending⟩ := finish_eq linkId h
  rw [htransport, hpending]
  by_cases hwaits : linkId ∈ self.pendingOutgoingCleanup.map (·.linkId)
  · rw [if_pos hwaits]
    rw [← keys_jobs] at hwaits
    refine ⟨sent, _, rfl, hwaits, id, List.subset_append_left _ _, fun earlier => ⟨.refl, ?_⟩⟩
    exact .single (.drop earlier hwaits hprefix)
  · rw [if_neg hwaits]
    rw [← keys_jobs] at hwaits
    refine ⟨sent, jobs self.pendingOutgoingCleanup ++ [(linkId, false)], rfl, ?_, ?_, ?_,
      fun earlier => ⟨?_, ?_⟩⟩
    · simp
    · simp
    · obtain ⟨finished, waiting⟩ := advanced
      cases finished with
      | true => simp [leftover]
      | false =>
        have hlink : waiting.linkId = linkId := hlink rfl
        simp [leftover, hlink]
    · exact .single (.add earlier hwaits)
    · have hadvance := hsteps (jobs self.pendingOutgoingCleanup) [] earlier
      rwa [List.append_nil, ← List.map_append] at hadvance

end TelephonyRnsEndpoint

/-! ## Runs -/

inductive CleanupInput
  | finish (linkId : LinkId)
  | flush
  | other

/-- What a run of the endpoint does to its waiting cleanups. Only two methods write the list;
`other` is whatever else the endpoint, the link manager and the reader of the queue do. -/
inductive CleanupStep : TelephonyRnsEndpoint rns → CleanupInput → TelephonyRnsEndpoint rns → Prop
  | finish (linkId : LinkId) (self : TelephonyRnsEndpoint rns) :
    CleanupStep self (.finish linkId) (self.finishOutgoingLinkLocally linkId true).2
  | flush (self : TelephonyRnsEndpoint rns) :
    CleanupStep self .flush self.flushOutgoingCleanup.2
  | other {before after : TelephonyRnsEndpoint rns}
    (hkept : after.pendingOutgoingCleanup = before.pendingOutgoingCleanup) :
    CleanupStep before .other after

theorem cleanup_primitives : Primitives (@CleanupStep rns) where
  keep h := ⟨_, .other (congrArg Tables.cleanup h)⟩
  flush self := ⟨_, .flush self⟩
  finish self linkId unbind := by
    cases unbind with
    | true => exact ⟨_, .finish linkId self⟩
    | false => exact ⟨_, .other rfl⟩
  manage self _ _ _ := ⟨_, .other rfl⟩
  dial self _ _ := ⟨_, .other rfl⟩
  establish self _ _ _ _ _ := ⟨_, .other rfl⟩
  enqueue self _ _ _ _ _ := ⟨_, .other rfl⟩
  refuse self _ _ _ _ _ := ⟨_, .other rfl⟩
  observe self := by
    obtain ⟨mediaDrops, h⟩ := TelephonyRnsEndpoint.countDrops_eq self.pendingMediaResults self
    refine ⟨_, .other ?_⟩
    rw [TelephonyRnsEndpoint.observed, h]

theorem EndpointCall.cleanup_moves (call : EndpointCall) (self : TelephonyRnsEndpoint rns) :
    ∃ ts, Machine.Trace CleanupStep self ts (call.after self) :=
  call.moves cleanup_primitives self

theorem CleanupStep.finished {before after : TelephonyRnsEndpoint rns} {input : CleanupInput}
    {linkId : LinkId} (h : CleanupStep before input after) (hinput : input = .finish linkId) :
    after = (before.finishOutgoingLinkLocally linkId true).2 := by
  cases h with
  | finish => rw [CleanupInput.finish.inj hinput]
  | flush | other => cases hinput

theorem CleanupStep.flushed {before after : TelephonyRnsEndpoint rns} {input : CleanupInput}
    (h : CleanupStep before input after) (hinput : input = .flush) :
    after = before.flushOutgoingCleanup.2 := by
  cases h with
  | flush => rfl
  | finish | other => cases hinput

abbrev CleanupTransition (rns : Rns) :=
  Machine.Transition (TelephonyRnsEndpoint rns) CleanupInput

/-- The messages that closing a link or retrying adds to the transport queue. -/
def admitted (t : CleanupTransition rns) : List TransportMessage :=
  match t.input with
  | .finish _ | .flush => t.after.transport.queue.drop t.before.transport.queue.length
  | .other => []

/-- Exactly one cleanup of the link waits, and it has still to deregister. -/
def Outstanding (linkId : LinkId) (self : TelephonyRnsEndpoint rns) : Prop :=
  ∃ before cleanup after, self.pendingOutgoingCleanup = before ++ cleanup :: after ∧
    cleanup.linkId = linkId ∧ deregisterMessage linkId ∈ cleanup.remaining ∧
    ∀ other ∈ before ++ after, other.linkId ≠ linkId

theorem outstanding_of_mem {linkId : LinkId} {self : TelephonyRnsEndpoint rns}
    (hnodup : (self.pendingOutgoingCleanup.map (·.linkId)).Nodup)
    (hmem : linkId ∈ self.pendingOutgoingCleanup.map (·.linkId)) : Outstanding linkId self := by
  obtain ⟨cleanup, hcleanup, rfl⟩ := List.mem_map.1 hmem
  obtain ⟨before, after, hpending⟩ := List.append_of_mem hcleanup
  refine ⟨before, cleanup, after, hpending, rfl, cleanup.deregister_mem_remaining, ?_⟩
  intro other hother heq
  rw [hpending] at hnodup
  have hperm : (before ++ cleanup :: after).Perm (cleanup :: (before ++ after)) :=
    List.perm_middle
  have hnodup := (hperm.map (·.linkId)).nodup_iff.1 hnodup
  rw [List.map_cons] at hnodup
  exact (List.nodup_cons.1 hnodup).1 (heq ▸ List.mem_map_of_mem hother)

/-- A step of the endpoint is steps of the jobs. -/
theorem CleanupStep.steps {before after : TelephonyRnsEndpoint rns} {input : CleanupInput}
    (h : CleanupStep before input after) (hopen : before.transport.closed = false)
    (earlier : List TransportMessage) :
    ReflTransGen JobStep (jobs before.pendingOutgoingCleanup, earlier)
      (jobs after.pendingOutgoingCleanup, earlier ++ admitted ⟨before, input, after⟩) := by
  cases h with
  | finish linkId =>
    obtain ⟨sent, added, htransport, -, -, -, hsteps⟩ :=
      TelephonyRnsEndpoint.finish_steps hopen linkId
    simp only [admitted, htransport, BoundedQueue.push_drop]
    exact (hsteps earlier).1.trans (hsteps earlier).2
  | flush =>
    obtain ⟨sent, htransport, -, hsteps⟩ := TelephonyRnsEndpoint.flush_steps hopen
    simp only [admitted, htransport, BoundedQueue.push_drop]
    exact hsteps earlier
  | other hkept =>
    rw [hkept]
    simp only [admitted, List.append_nil]
    exact .refl

variable {s s' : TelephonyRnsEndpoint rns} {ts : List (CleanupTransition rns)}

theorem trace_steps (hrun : Machine.Trace CleanupStep s ts s')
    (hopen : ∀ t ∈ ts, t.before.transport.closed = false) (earlier : List TransportMessage) :
    ReflTransGen JobStep (jobs s.pendingOutgoingCleanup, earlier)
      (jobs s'.pendingOutgoingCleanup, earlier ++ ts.flatMap admitted) := by
  induction hrun generalizing earlier with
  | nil =>
    simp only [List.flatMap_nil, List.append_nil]
    exact .refl
  | cons head tail ih =>
    obtain ⟨hopen, hrest⟩ := List.forall_mem_cons.1 hopen
    have hsteps := (head.steps hopen earlier).trans (ih hrest _)
    rwa [List.append_assoc, ← List.flatMap_cons] at hsteps

/-- A cleanup that waits was asked for. -/
theorem trace_asked (hrun : Machine.Trace CleanupStep s ts s')
    (hopen : ∀ t ∈ ts, t.before.transport.closed = false) {linkId : LinkId}
    (hmem : linkId ∈ s'.pendingOutgoingCleanup.map (·.linkId)) :
    linkId ∈ s.pendingOutgoingCleanup.map (·.linkId) ∨ ∃ t ∈ ts, t.input = .finish linkId := by
  induction hrun with
  | nil => exact .inl hmem
  | cons head tail ih =>
    obtain ⟨hopen, hrest⟩ := List.forall_mem_cons.1 hopen
    rcases ih hrest hmem with hmem | ⟨t, ht, hinput⟩
    · cases head with
      | finish closed =>
        obtain ⟨_, _, -, -, -, hsubset, -⟩ := TelephonyRnsEndpoint.finish_steps hopen closed
        rcases List.mem_append.1 (hsubset hmem) with hmem | hmem
        · exact .inl hmem
        · right
          rw [List.mem_singleton.1 hmem]
          exact ⟨_, List.mem_cons_self .., rfl⟩
      | flush =>
        obtain ⟨_, -, hsubset, -⟩ := TelephonyRnsEndpoint.flush_steps hopen
        exact .inl (hsubset hmem)
      | other hkept =>
        rw [hkept] at hmem
        exact .inl hmem
    · exact .inr ⟨t, List.mem_cons_of_mem _ ht, hinput⟩

/-- The account of the cleanups of a run. -/
structure CleanupKept (ts : List (CleanupTransition rns)) (last : TelephonyRnsEndpoint rns) :
    Prop where
  /-- Since a link was first closed it was unbound and then deregistered, or its cleanup waits. -/
  first : ∀ earlier close later linkId, ts = earlier ++ close :: later →
    close.input = .finish linkId → (∀ t ∈ earlier, t.input ≠ .finish linkId) →
    Outstanding linkId last ∨ ∃ xs zs,
      (close :: later).flatMap admitted = xs ++ deregisterMessage linkId :: zs ∧
        unbindMessage linkId ∈ xs
  /-- It is the same after each call, apart from an unbind that was admitted before the call. -/
  again : ∀ earlier close later linkId, ts = earlier ++ close :: later →
    close.input = .finish linkId →
    Outstanding linkId last ∨ ∃ xs zs,
      (close :: later).flatMap admitted = xs ++ deregisterMessage linkId :: zs ∧
        (unbindMessage linkId ∈ xs ∨ ⟨linkId, true⟩ ∈ close.before.pendingOutgoingCleanup)
  ordered : ∀ linkId xs zs, ts.flatMap admitted = xs ++ deregisterMessage linkId :: zs →
    unbindMessage linkId ∈ xs
  flushed : ∀ t ∈ ts, t.input = .flush →
    (t.before.pendingOutgoingCleanup.flatMap (·.remaining)).length ≤ t.before.transport.free →
    t.after.pendingOutgoingCleanup = []

theorem mem_jobs {linkId : LinkId} {unbindSent : Bool} {cleanups : List PendingOutgoingCleanup} :
    (linkId, unbindSent) ∈ jobs cleanups ↔ ⟨linkId, unbindSent⟩ ∈ cleanups := by
  constructor
  · intro h
    obtain ⟨⟨_, _⟩, hmem, heq⟩ := List.mem_map.1 h
    cases heq
    exact hmem
  · intro h
    exact List.mem_map_of_mem h

theorem cleanup_again (hrun : Machine.Trace CleanupStep s ts s')
    (hstart : s.pendingOutgoingCleanup = [])
    (hopen : ∀ t ∈ ts, t.before.transport.closed = false)
    {earlier later : List (CleanupTransition rns)} {close : CleanupTransition rns}
    {linkId : LinkId} (hts : ts = earlier ++ close :: later)
    (hclose : close.input = .finish linkId) :
    Outstanding linkId s' ∨ ∃ xs zs,
      (close :: later).flatMap admitted = xs ++ deregisterMessage linkId :: zs ∧
        (unbindMessage linkId ∈ xs ∨
          ⟨linkId, true⟩ ∈ close.before.pendingOutgoingCleanup) := by
  have hnodup : (s'.pendingOutgoingCleanup.map (·.linkId)).Nodup := by
    rw [← keys_jobs]
    apply TwoStep.nodup (trace_steps hrun hopen [])
    rw [hstart]
    exact List.nodup_nil
  rw [hts] at hrun hopen
  obtain ⟨_, -, hrun⟩ := Machine.Trace.append_iff.1 hrun
  obtain ⟨rfl, hstep, hlater⟩ := Machine.Trace.cons_iff.1 hrun
  obtain ⟨hopen, hrest⟩ := List.forall_mem_cons.1 (List.forall_mem_append.1 hopen).2
  obtain ⟨sent, added, htransport, hadded, hbegun, -, hsteps⟩ :=
    TelephonyRnsEndpoint.finish_steps hopen linkId
  have hafter := hstep.finished hclose
  have hadmitted : admitted close = sent := by
    simp only [admitted, hclose, hafter, htransport, BoundedQueue.push_drop]
  rw [← hafter] at hsteps
  have hall := (hsteps []).2.trans (trace_steps hlater hrest _)
  rw [List.nil_append] at hall
  rw [List.flatMap_cons, hadmitted]
  rcases TwoStep.accounted deregisterMessage_injective unbindMessage_ne hall hadded with
    hwaits | ⟨xs, zs, hsent, hfirst⟩
  · rw [keys_jobs] at hwaits
    exact .inl (outstanding_of_mem hnodup hwaits)
  · exact .inr ⟨xs, zs, hsent, hfirst.imp_right fun h => mem_jobs.1 (hbegun h)⟩

/-- In a run with an open transport queue no cleanup is lost or reordered. -/
theorem cleanup_kept (hrun : Machine.Trace CleanupStep s ts s')
    (hstart : s.pendingOutgoingCleanup = [])
    (hopen : ∀ t ∈ ts, t.before.transport.closed = false) : CleanupKept ts s' where
  first earlier close later linkId hts hclose hfirst := by
    rcases cleanup_again hrun hstart hopen hts hclose with hwaits | ⟨xs, zs, hsent, hunbind | hold⟩
    · exact .inl hwaits
    · exact .inr ⟨xs, zs, hsent, hunbind⟩
    · -- a cleanup that waited before the first call was asked for by none
      rw [hts] at hrun hopen
      obtain ⟨_, hearlier, hrun⟩ := Machine.Trace.append_iff.1 hrun
      obtain ⟨rfl, -, -⟩ := Machine.Trace.cons_iff.1 hrun
      have hmem := List.mem_map_of_mem (f := PendingOutgoingCleanup.linkId) hold
      rcases trace_asked hearlier (List.forall_mem_append.1 hopen).1 hmem with h | ⟨t, ht, hinput⟩
      · rw [hstart] at h
        cases h
      · exact absurd hinput (hfirst t ht)
  again earlier close later linkId hts hclose := cleanup_again hrun hstart hopen hts hclose
  ordered linkId xs zs hsent := by
    have hsteps := trace_steps hrun hopen []
    rw [hstart, List.nil_append] at hsteps
    have hstart : TwoStep.Ordered unbindMessage deregisterMessage linkId False ([], []) :=
      ⟨nofun, .nil⟩
    have hordered := TwoStep.ordered deregisterMessage_injective unbindMessage_ne hsteps hstart
    have hprefix : xs ++ [deregisterMessage linkId] <+: ts.flatMap admitted :=
      ⟨zs, by rw [hsent, List.append_assoc, List.singleton_append]⟩
    exact (hordered.follows xs hprefix).resolve_right id
  flushed t ht hinput hroom := by
    obtain ⟨_, hstep, _⟩ := hrun.transition (I := fun _ => True) (G := fun _ _ => True)
      (fun _ _ _ _ _ _ => trivial) trivial (fun _ _ => trivial) _ ht
    rw [hstep.flushed hinput, TelephonyRnsEndpoint.flush_eq]
    exact TelephonyRnsEndpoint.flushCleanups_empties _ (hopen t ht) hroom

/-- A queue with one slot: the link is unbound, and deregistered once the slot is free again. -/
def oneSlot : TelephonyRnsEndpoint Rns.plain :=
  .new (.replicate 16 0) [] ⟨[], [], [], []⟩ ⟨[], 1, false⟩

theorem cleanup_kept_oneSlot :
    let closed := (oneSlot.finishOutgoingLinkLocally (.replicate 16 7) true).2
    let drained := { closed with transport := { closed.transport with queue := [] } }
    closed.pendingOutgoingCleanup = [⟨.replicate 16 7, true⟩] ∧
      drained.flushOutgoingCleanup.2.pendingOutgoingCleanup = [] ∧
      CleanupKept [⟨oneSlot, .finish (.replicate 16 7), closed⟩, ⟨closed, .other, drained⟩,
        ⟨drained, .flush, drained.flushOutgoingCleanup.2⟩] drained.flushOutgoingCleanup.2 := by
  refine ⟨by decide, by decide, cleanup_kept (.cons (.finish _ _)
    (.cons (.other rfl) (.cons (.flush _) (.nil _)))) rfl ?_⟩
  simp only [List.forall_mem_cons]
  exact ⟨rfl, by decide, rfl, nofun⟩

end Lxst.Telephony
