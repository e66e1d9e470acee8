import Sentinel.Media.Pipeline

/-!
# Source pipeline: what the adapters see

A path's run is what was written to its adapter since the last call that cut the writes, followed by what is queued. One
invariant of a path says that the run is decodable and ends with the last packet offered, unless the path waits for a keyframe
or is out of use, when it is empty; every operation of a path either flushes it or makes the run one packet longer.
-/

namespace Sentinel.Media

/-! ## Runs of calls -/

/-- The reply cuts the packets written to an adapter. -/
def Reply.Breaks (reply : Reply) : Prop := ∀ packet, reply ≠ ⟨.write packet, true⟩

theorem Reply.breaks_close (returned : Bool) : Reply.Breaks ⟨.close, returned⟩ := nofun

theorem Reply.breaks_reset (returned : Bool) : Reply.Breaks ⟨.reset, returned⟩ := nofun

theorem Reply.breaks_raised (call : Call) : Reply.Breaks ⟨call, false⟩ := nofun

section Runs

variable {reply : Reply} {calls breaks : List Reply} {run : List CompressedPacket}

theorem currentRun_break (h : reply.Breaks) : currentRun (reply :: calls) = [] := by
  obtain ⟨call, returned⟩ := reply
  cases call <;> cases returned <;> first | rfl | exact absurd rfl (h _)

theorem endedRuns_break (h : reply.Breaks) : endedRuns (reply :: calls) = runs calls := by
  obtain ⟨call, returned⟩ := reply
  cases call <;> cases returned <;> first | rfl | exact absurd rfl (h _)

theorem written_break (h : reply.Breaks) : written (reply :: calls) = written calls := by
  obtain ⟨call, returned⟩ := reply
  cases call <;> cases returned <;> first | rfl | exact absurd rfl (h _)

theorem written_breaks (h : ∀ reply ∈ breaks, reply.Breaks) : written (breaks ++ calls) = written calls := by
  induction breaks with
  | nil => rfl
  | cons reply breaks ih =>
    rw [List.cons_append, written_break (h _ List.mem_cons_self)]
    exact ih fun r hr => h r (List.mem_cons_of_mem _ hr)

theorem mem_runs_breaks (h : ∀ reply ∈ breaks, reply.Breaks) (hrun : run ∈ runs (breaks ++ calls)) :
    run = [] ∨ run ∈ runs calls := by
  induction breaks with
  | nil => exact .inr hrun
  | cons reply breaks ih =>
    have hreply := h _ List.mem_cons_self
    rw [List.cons_append, runs, currentRun_break hreply, endedRuns_break hreply] at hrun
    rcases List.mem_cons.1 hrun with rfl | hrun
    · exact .inl rfl
    · exact ih (fun r hr => h r (List.mem_cons_of_mem _ hr)) hrun

end Runs

/-! ## Decodable runs -/

section Decodable

variable {capture : CaptureProfile} {run later : List CompressedPacket} {packet : CompressedPacket}

theorem Decodable.nil : Decodable capture [] := ⟨by simp, List.isChain_nil⟩

theorem Decodable.of_append (h : Decodable capture (run ++ later)) : Decodable capture run := by
  refine ⟨?_, h.follows.left_of_append⟩
  intro packet hpacket
  refine h.starts packet ?_
  rw [List.head?_append, Option.mem_def.1 hpacket]
  rfl

theorem Decodable.concat (h : Decodable capture run) (hstart : run = [] → packet.keyframe = true)
    (hfollows : ∀ last ∈ run.getLast?, Follows capture last packet) : Decodable capture (run ++ [packet]) := by
  refine ⟨?_, ?_⟩
  · intro first hfirst
    cases run with
    | nil =>
      cases hfirst
      exact hstart rfl
    | cons head rest => exact h.starts first hfirst
  · refine List.isChain_append.2 ⟨h.follows, List.isChain_singleton _, ?_⟩
    intro last hlast next hnext
    cases hnext
    exact hfollows last hlast

end Decodable

theorem queuedBytes_append (queue : List CompressedPacket) (packet : CompressedPacket) :
    queuedBytes (queue ++ [packet]) = queuedBytes queue + packet.data.length := by
  simp [queuedBytes]

/-! ## One path -/

variable {last : CompressedPacket}

namespace PacketPath

variable {capture : CaptureProfile} {limits : QueueLimits} {stream offered : List CompressedPacket}
  {path path' after : PacketPath} {packet : CompressedPacket} {reason : PathReason}

/-- What is written without a cut, followed by what is queued. -/
def pending (path : PacketPath) : List CompressedPacket := currentRun path.calls ++ path.queue

/-- The path takes no packets any more. -/
def Unusable (path : PacketPath) : Prop := path.closed = true ∨ path.failed = true ∨ path.adapter = none

/-- The path has the limits and the record of what was offered, and keeps its promise for the packets of the stream. -/
structure Inv (capture : CaptureProfile) (limits : QueueLimits) (stream offered : List CompressedPacket)
    (path : PacketPath) : Prop where
  limits : path.limits = limits
  offered : path.offered = offered
  counter : path.bytes = queuedBytes path.queue
  packets : path.queue.length ≤ path.limits.maximumPackets
  bytes : path.bytes ≤ path.limits.maximumBytes
  idle : path.pending = [] ↔ path.awaitingKeyframe = true ∨ path.Unusable
  decodable : Decodable capture path.pending
  latest : path.pending <:+ stream
  runs : ∀ run ∈ runs path.calls, Decodable capture run ∧ run <:+: stream
  counted : stream.length + path.droppedBefore + path.skippedBefore
    = written path.calls + path.queue.length + path.dropped + path.skipped

/-- What stays as it is when a path is flushed, and what does not. -/
structure Flushes (path after : PacketPath) : Prop where
  queue : after.queue = []
  bytes : after.bytes = 0
  limits : after.limits = path.limits
  offered : after.offered = path.offered
  before : after.droppedBefore = path.droppedBefore ∧ after.skippedBefore = path.skippedBefore
  skipped : after.skipped = path.skipped
  dropped : after.dropped = path.dropped + path.queue.length
  calls : ∃ breaks, after.calls = breaks ++ path.calls ∧ ∀ reply ∈ breaks, Reply.Breaks reply

/-- A flush after which the path has no run. -/
structure Idles (path after : PacketPath) : Prop extends Flushes path after where
  run : currentRun after.calls = []
  idle : after.awaitingKeyframe = true ∨ after.Unusable

theorem Flushes.idles (h : path.Flushes path') (h' : path'.Idles after) : path.Idles after := by
  obtain ⟨breaks, hcalls, hbreaks⟩ := h.calls
  obtain ⟨breaks', hcalls', hbreaks'⟩ := h'.calls
  refine { h' with
    limits := h'.limits.trans h.limits, offered := h'.offered.trans h.offered
    before := ⟨h'.before.1.trans h.before.1, h'.before.2.trans h.before.2⟩, skipped := h'.skipped.trans h.skipped
    dropped := ?_, calls := ⟨breaks' ++ breaks, ?_, ?_⟩ }
  · rw [h'.dropped, h.dropped, h.queue, List.length_nil, Nat.add_zero]
  · rw [hcalls', hcalls, List.append_assoc]
  · exact List.forall_mem_append.2 ⟨hbreaks', hbreaks⟩

theorem Idles.pending (h : path.Idles after) : after.pending = [] := by
  rw [PacketPath.pending, h.run, h.queue, List.append_nil]

theorem Inv.flush (hpath : path.Inv capture limits stream offered) (h : path.Idles after) :
    after.Inv capture limits stream offered := by
  obtain ⟨breaks, hcalls, hbreaks⟩ := h.calls
  have hcounted := hpath.counted
  refine ⟨h.limits.trans hpath.limits, h.offered.trans hpath.offered, ?_, ?_, ?_, iff_of_true h.pending h.idle, ?_, ?_, ?_, ?_⟩
  · rw [h.bytes, h.queue]
    rfl
  · rw [h.queue]
    exact Nat.zero_le _
  · rw [h.bytes]
    exact Int.natCast_nonneg _
  · rw [h.pending]
    exact .nil
  · rw [h.pending]
    exact List.nil_suffix
  · intro run hrun
    rw [hcalls] at hrun
    rcases mem_runs_breaks hbreaks hrun with rfl | hrun
    · exact ⟨.nil, List.nil_infix⟩
    · exact hpath.runs run hrun
  · rw [hcalls, written_breaks hbreaks, h.queue, h.before.1, h.before.2, h.dropped, h.skipped, List.length_nil]
    omega

/-! ### Releasing and failing -/

theorem clear_flushes (path : PacketPath) : path.Flushes path.clear :=
  ⟨rfl, rfl, rfl, rfl, ⟨rfl, rfl⟩, rfl, rfl, [], rfl, by simp⟩

theorem Flushes.of_empty (hqueue : path.queue = []) (hbytes : path.bytes = 0) : path.Flushes path :=
  ⟨hqueue, hbytes, rfl, rfl, ⟨rfl, rfl⟩, rfl, by simp [hqueue], [], rfl, by simp⟩

theorem releaseAdapter_spec (path : PacketPath) :
    path.releaseAdapter = path ∧ path.adapter = none ∨
      ∃ returned reason failed adapter, path.releaseAdapter =
        { path with calls := ⟨.close, returned⟩ :: path.calls, reason, failed, adapter } ∧
          (path.failed = true → failed = true) := by
  unfold releaseAdapter
  split
  next hnone => exact .inl ⟨rfl, hnone⟩
  next adapter hsome =>
    unfold call
    split
    next p hcall =>
      simp only [Prod.mk.injEq] at hcall
      exact .inr ⟨_, path.reason, path.failed, none, by rw [← hcall.2], id⟩
    next p hcall =>
      simp only [Prod.mk.injEq] at hcall
      exact .inr ⟨_, .adapterCloseFailed, true, path.adapter, by rw [← hcall.2], fun _ => rfl⟩

/-- A path that is out of use is idle once its adapter is released. -/
theorem Flushes.release (h : path.Flushes after) (hrun : after.adapter = none → currentRun after.calls = [])
    (hunused : after.closed = true ∨ after.failed = true) : path.Idles after.releaseAdapter := by
  rcases after.releaseAdapter_spec with ⟨hsame, hnone⟩ | ⟨returned, reason, failed, adapter, hclose, hkeeps⟩
  · rw [hsame]
    exact { h with run := hrun hnone, idle := .inr (.inr (.inr hnone)) }
  · rw [hclose]
    obtain ⟨breaks, hcalls, hbreaks⟩ := h.calls
    have hbreak := Reply.breaks_close returned
    exact { h with
      calls := ⟨⟨.close, returned⟩ :: breaks, by rw [hcalls]; rfl, List.forall_mem_cons.2 ⟨hbreak, hbreaks⟩⟩
      run := currentRun_break hbreak
      idle := .inr (hunused.imp_right fun hfailed => .inl (hkeeps hfailed)) }

theorem fail_idles (hrun : currentRun path.calls = []) : path.Idles (path.fail reason) :=
  Flushes.release { path.clear_flushes with } (fun _ => hrun) (.inr rfl)

theorem fail_failed (path : PacketPath) (reason : PathReason) : (path.fail reason).failed = true := by
  unfold fail
  rcases releaseAdapter_spec { path.clear with failed := true, reason } with ⟨hsame, -⟩ | ⟨_, _, failed, _, hclose, hkeeps⟩
  · rw [hsame]
  · rw [hclose]
    exact hkeeps rfl

theorem Inv.unusable (hpath : path.Inv capture limits stream offered) (hunusable : path.Unusable) :
    currentRun path.calls = [] ∧ path.queue = [] ∧ path.bytes = 0 := by
  have hpending := hpath.idle.2 (.inr hunusable)
  obtain ⟨hrun, hqueue⟩ := List.append_eq_nil_iff.1 hpending
  refine ⟨hrun, hqueue, ?_⟩
  rw [hpath.counter, hqueue]
  rfl

/-! ### Discontinuities and closing -/

/-- What `discontinuity` leaves before the adapter is reset. -/
def interrupted (path : PacketPath) (reason : PathReason) : PacketPath :=
  { path.clear with discontinuities := path.discontinuities + 1, awaitingKeyframe := true, reason }

/-- `discontinuity` resets the adapter of a path in use; when that fails, the path does. -/
theorem discontinuity_spec (path : PacketPath) (reason : PathReason) :
    path.discontinuity reason = path.interrupted reason ∧ path.Unusable ∨
      ∃ returned, let reset := { path.interrupted reason with calls := ⟨.reset, returned⟩ :: path.calls }
        path.discontinuity reason = reset ∨ path.discontinuity reason = reset.fail .adapterResetFailed := by
  unfold discontinuity
  dsimp only
  split
  next hnone => exact .inl ⟨rfl, .inr (.inr hnone)⟩
  next adapter hsome =>
    split
    next hfailed => exact .inl ⟨rfl, .inr (.inl hfailed)⟩
    next hfailed =>
      unfold call
      split
      next p hcall =>
        simp only [Prod.mk.injEq] at hcall
        exact .inr ⟨_, .inl hcall.2.symm⟩
      next p hcall =>
        simp only [Prod.mk.injEq] at hcall
        exact .inr ⟨_, .inr (by rw [← hcall.2]; rfl)⟩

theorem reset_idles (path : PacketPath) (reason : PathReason) (returned : Bool) :
    path.Idles { path.interrupted reason with calls := ⟨.reset, returned⟩ :: path.calls } := by
  have hbreak := Reply.breaks_reset returned
  refine ⟨⟨rfl, rfl, rfl, rfl, ⟨rfl, rfl⟩, rfl, rfl, [⟨.reset, returned⟩], rfl, ?_⟩, currentRun_break hbreak, .inl rfl⟩
  exact List.forall_mem_singleton.2 hbreak

theorem Inv.discontinuity_idles (hpath : path.Inv capture limits stream offered) (reason : PathReason) :
    path.Idles (path.discontinuity reason) := by
  rcases path.discontinuity_spec reason with ⟨hsame, hunusable⟩ | ⟨returned, hreset | hfail⟩
  · rw [hsame]
    exact { path.clear_flushes with run := (hpath.unusable hunusable).1, idle := .inl rfl }
  · rw [hreset]
    exact path.reset_idles reason returned
  · have hreset := path.reset_idles reason returned
    rw [hfail]
    exact hreset.toFlushes.idles (fail_idles hreset.run)

theorem Inv.discontinuity (hpath : path.Inv capture limits stream offered) (reason : PathReason) :
    (path.discontinuity reason).Inv capture limits stream offered :=
  hpath.flush (hpath.discontinuity_idles reason)

theorem discontinuity_usable (husable : ¬ path.Unusable) (hfailed : (path.discontinuity reason).failed = false) :
    ¬ (path.discontinuity reason).Unusable := by
  rcases path.discontinuity_spec reason with ⟨-, hunusable⟩ | ⟨returned, hreset | hfail⟩
  · exact absurd hunusable husable
  · rw [hreset]
    exact husable
  · rw [hfail, fail_failed] at hfailed
    cases hfailed

theorem Inv.close (hpath : path.Inv capture limits stream offered) : path.close.Inv capture limits stream offered := by
  have hunheld : path.adapter = none → currentRun path.calls = [] := fun hnone => (hpath.unusable (.inr (.inr hnone))).1
  refine hpath.flush ?_
  unfold PacketPath.close
  by_cases hclosed : path.closed = true
  · obtain ⟨-, hqueue, hbytes⟩ := hpath.unusable (.inl hclosed)
    rw [if_pos hclosed]
    exact (Flushes.of_empty hqueue hbytes).release hunheld (.inl hclosed)
  · have hreleased : path.Idles { path.clear with closed := true }.releaseAdapter :=
      Flushes.release { path.clear_flushes with } hunheld (.inl rfl)
    rw [if_neg hclosed]
    dsimp only
    split
    next => exact hreleased
    next => exact { hreleased with }

/-! ### Offering -/

theorem Inv.miss (hpath : path.Inv capture limits stream offered) (hpending : path.pending = []) {dropped skipped : Nat}
    (hcount : dropped + skipped = path.dropped + path.skipped + 1) (packet : CompressedPacket) :
    { path with dropped, skipped }.Inv capture limits (stream ++ [packet]) offered := by
  have hcounted := hpath.counted
  refine { hpath with latest := ?_, runs := ?_, counted := ?_ }
  · show path.pending <:+ stream ++ [packet]
    rw [hpending]
    exact List.nil_suffix
  · intro run hrun
    obtain ⟨hdecodable, hinfix⟩ := hpath.runs run hrun
    exact ⟨hdecodable, hinfix.trans (List.prefix_append _ _).isInfix⟩
  · rw [List.length_append, List.length_singleton]
    show stream.length + 1 + path.droppedBefore + path.skippedBefore
      = written path.calls + path.queue.length + dropped + skipped
    omega

/-- `offer` once there is room: the packet goes to the end of the run, or an idle path misses it. -/
theorem Inv.enqueue (hpath : path.Inv capture limits stream offered) (husable : path.failed = false → ¬ path.Unusable)
    (hroom : ¬ path.Crowded packet) (hfollows : ∀ last ∈ path.pending.getLast?, Follows capture last packet) :
    (path.enqueue packet).2.Inv capture limits (stream ++ [packet]) offered := by
  unfold PacketPath.enqueue
  by_cases hfailed : path.failed = true
  · rw [if_pos hfailed]
    exact hpath.miss (hpath.idle.2 (.inr (.inr (.inl hfailed)))) (by omega) packet
  rw [if_neg hfailed]
  by_cases hwaits : path.awaitingKeyframe = true ∧ ¬ packet.keyframe = true
  · rw [if_pos hwaits]
    have hpending := hpath.idle.2 (.inl hwaits.1)
    split
    next => exact hpath.miss hpending (by omega) packet
    next => exact hpath.miss hpending (by omega) packet
  rw [if_neg hwaits]
  have husable := husable (Bool.eq_false_iff.2 hfailed)
  obtain ⟨hpackets, hbytes⟩ := not_or.1 hroom
  have hcounter := hpath.counter
  have hcounted := hpath.counted
  have hpending : currentRun path.calls ++ (path.queue ++ [packet]) = path.pending ++ [packet] :=
    (List.append_assoc _ _ _).symm
  refine ⟨hpath.limits, hpath.offered, ?_, ?_, ?_, ?_, ?_, ?_, ?_, ?_⟩
  · show path.bytes + packet.data.length = queuedBytes (path.queue ++ [packet])
    rw [queuedBytes_append, hcounter, Nat.cast_add]
  · show (path.queue ++ [packet]).length ≤ path.limits.maximumPackets
    rw [List.length_append, List.length_singleton]
    omega
  · show path.bytes + packet.data.length ≤ path.limits.maximumBytes
    omega
  · refine iff_of_false ?_ ?_
    · show currentRun path.calls ++ (path.queue ++ [packet]) ≠ []
      simp
    · rintro (hawaits | hunusable)
      · cases hawaits
      · exact husable hunusable
  · show Decodable capture (currentRun path.calls ++ (path.queue ++ [packet]))
    rw [hpending]
    refine hpath.decodable.concat ?_ hfollows
    -- an empty run of a path in use waits for a keyframe
    intro hempty
    have hawaits := (hpath.idle.1 hempty).resolve_right husable
    by_contra hkeyframe
    exact hwaits ⟨hawaits, hkeyframe⟩
  · show currentRun path.calls ++ (path.queue ++ [packet]) <:+ stream ++ [packet]
    rw [hpending]
    exact (List.suffix_append_inj_of_length_eq rfl).2 ⟨hpath.latest, rfl⟩
  · intro run hrun
    obtain ⟨hdecodable, hinfix⟩ := hpath.runs run hrun
    exact ⟨hdecodable, hinfix.trans (List.prefix_append _ _).isInfix⟩
  · show (stream ++ [packet]).length + path.droppedBefore + path.skippedBefore
      = written path.calls + (path.queue ++ [packet]).length + path.dropped + path.skipped
    rw [List.length_append, List.length_append, List.length_singleton]
    omega

/-- The body of `offer` keeps the promise for the packets that then are offered. -/
theorem Inv.take (hpath : path.Inv capture limits stream offered)
    (hfollows : ∀ last ∈ path.pending.getLast?, Follows capture last packet) :
    (path.take packet).2.Inv capture limits (stream ++ [packet]) offered := by
  unfold PacketPath.take
  by_cases hunusable : path.closed = true ∨ path.adapter.isNone = true ∨ path.failed = true
  · rw [if_pos hunusable]
    have hidle : path.Unusable := by
      rcases hunusable with hclosed | hnone | hfailed
      · exact .inl hclosed
      · exact .inr (.inr (Option.isNone_iff_eq_none.1 hnone))
      · exact .inr (.inl hfailed)
    exact hpath.miss (hpath.idle.2 (.inr hidle)) (by omega) packet
  rw [if_neg hunusable]
  have husable : ¬ path.Unusable := by
    rintro (hclosed | hfailed | hnone)
    · exact hunusable (.inl hclosed)
    · exact hunusable (.inr (.inr hfailed))
    · exact hunusable (.inr (.inl (Option.isNone_iff_eq_none.2 hnone)))
  by_cases hlarge : path.limits.maximumBytes < packet.data.length
  · rw [if_pos hlarge]
    exact (hpath.discontinuity _).miss (hpath.discontinuity_idles _).pending (by omega) packet
  rw [if_neg hlarge]
  by_cases hcrowded : path.Crowded packet
  · rw [if_pos hcrowded]
    have hidles := hpath.discontinuity_idles .backpressure
    refine (hpath.discontinuity _).enqueue (discontinuity_usable husable) ?_ ?_
    · -- a flushed queue has room for any packet that is not too large by itself
      rintro (hpackets | hbytes)
      · rw [hidles.limits, hidles.queue, List.length_nil] at hpackets
        have := path.limits.packets_pos
        omega
      · rw [hidles.limits, hidles.bytes] at hbytes
        omega
    · intro last hlast
      rw [hidles.pending] at hlast
      cases hlast
  · rw [if_neg hcrowded]
    exact hpath.enqueue (fun _ => husable) hcrowded hfollows

theorem Inv.offer (hpath : path.Inv capture limits stream offered)
    (hfollows : ∀ last ∈ path.pending.getLast?, Follows capture last packet) :
    (path.offer packet).2.Inv capture limits (stream ++ [packet]) (offered ++ [packet]) := by
  have htake := hpath.take hfollows
  exact { htake with offered := congrArg (· ++ [packet]) htake.offered }

/-! ### Pumping -/

variable {queue whole : List CompressedPacket}

theorem Inv.write (hpath : path.Inv capture limits stream offered) (hqueue : path.queue = packet :: queue) : { path with
      queue
      bytes := path.bytes - packet.data.length
      calls := ⟨.write packet, true⟩ :: path.calls }.Inv capture limits stream offered := by
  have hpending : currentRun path.calls ++ [packet] ++ queue = path.pending := by
    rw [pending, hqueue, List.append_assoc, List.singleton_append]
  have hcounter := hpath.counter
  have hpackets := hpath.packets
  have hbytes := hpath.bytes
  have hcounted := hpath.counted
  have htotal : queuedBytes path.queue = packet.data.length + queuedBytes queue := by
    rw [hqueue, queuedBytes, List.map_cons, List.sum_cons]
    rfl
  rw [hqueue, List.length_cons] at hpackets hcounted
  refine ⟨hpath.limits, hpath.offered, ?_, ?_, ?_, ?_, ?_, ?_, ?_, ?_⟩
  · show path.bytes - packet.data.length = queuedBytes queue
    omega
  · show queue.length ≤ path.limits.maximumPackets
    omega
  · show path.bytes - packet.data.length ≤ path.limits.maximumBytes
    omega
  · show currentRun path.calls ++ [packet] ++ queue = [] ↔ _
    rw [hpending]
    exact hpath.idle
  · show Decodable capture (currentRun path.calls ++ [packet] ++ queue)
    rw [hpending]
    exact hpath.decodable
  · show currentRun path.calls ++ [packet] ++ queue <:+ stream
    rw [hpending]
    exact hpath.latest
  · intro run hrun
    rcases List.mem_cons.1 hrun with rfl | hrun
    · -- what is written now is the beginning of the run
      have hdecodable := hpath.decodable
      rw [← hpending] at hdecodable
      refine ⟨hdecodable.of_append, List.IsInfix.trans ?_ hpath.latest.isInfix⟩
      exact ⟨[], queue, hpending⟩
    · exact hpath.runs run (List.mem_cons_of_mem _ hrun)
  · show stream.length + path.droppedBefore + path.skippedBefore
      = written path.calls + 1 + queue.length + path.dropped + path.skipped
    omega

theorem writeFailed_idles (hqueue : path.queue = packet :: queue) (bytes : Int) : path.Idles ({ path with
      queue
      bytes
      calls := ⟨.write packet, false⟩ :: path.calls
      dropped := path.dropped + 1 }.fail .adapterWriteFailed) := by
  have hbreak := Reply.breaks_raised (.write packet)
  have hfail := @fail_idles { path with
    queue
    bytes
    calls := ⟨.write packet, false⟩ :: path.calls
    dropped := path.dropped + 1 } .adapterWriteFailed (currentRun_break hbreak)
  obtain ⟨breaks, hcalls, hbreaks⟩ := hfail.calls
  refine { hfail with dropped := ?_, calls := ⟨breaks ++ [⟨.write packet, false⟩], ?_, ?_⟩ }
  · rw [hfail.dropped, hqueue, List.length_cons]
    show path.dropped + 1 + queue.length = path.dropped + (queue.length + 1)
    omega
  · rw [hcalls, List.append_assoc]
    rfl
  · exact List.forall_mem_append.2 ⟨hbreaks, List.forall_mem_singleton.2 hbreak⟩

theorem pump_succ {adapter : PacketAdapter} (hqueue : path.queue = packet :: queue) (hfailed : path.failed = false)
    (hadapter : path.adapter = some adapter) (budget : Nat) : path.pump (budget + 1) =
      let wrote := { path with
        queue
        bytes := path.bytes - packet.data.length
        calls := ⟨.write packet, adapter path.calls (.write packet)⟩ :: path.calls }
      if adapter path.calls (.write packet) then ((wrote.pump budget).1 + 1, (wrote.pump budget).2)
      else (0, { wrote with dropped := path.dropped + 1 }.fail .adapterWriteFailed) := by
  rw [PacketPath.pump, hqueue]
  dsimp only
  rw [if_neg (Bool.eq_false_iff.1 hfailed), hadapter]
  rfl

/-- By induction on the budget: every write that returns leaves a path that keeps its promise. -/
theorem Inv.pump (hpath : path.Inv capture limits stream offered) (budget : Nat) :
    (path.pump budget).2.Inv capture limits stream offered := by
  induction budget generalizing path with
  | zero => exact hpath
  | succ budget ih =>
    cases hqueue : path.queue with
    | nil =>
      rw [PacketPath.pump, hqueue]
      exact hpath
    | cons packet queue =>
      have husable : ¬ path.Unusable := by
        intro hunusable
        rw [(hpath.unusable hunusable).2.1] at hqueue
        cases hqueue
      obtain ⟨-, hfailed, hadapter⟩ : path.closed ≠ true ∧ path.failed ≠ true ∧ path.adapter ≠ none := by
        simpa [Unusable, not_or] using husable
      obtain ⟨adapter, hadapter⟩ := Option.ne_none_iff_exists'.1 hadapter
      rw [pump_succ hqueue (Bool.eq_false_iff.2 hfailed) hadapter]
      dsimp only
      by_cases hreturned : adapter path.calls (.write packet) = true
      · rw [if_pos hreturned, hreturned]
        exact ih (hpath.write hqueue)
      · rw [if_neg hreturned, Bool.eq_false_iff.2 hreturned]
        exact hpath.flush (writeFailed_idles hqueue _)

/-! ### The promise of a path -/

/-- The path keeps its promise for the packets offered to it. -/
abbrev Kept (capture : CaptureProfile) (limits : QueueLimits) (stream : List CompressedPacket) (path : PacketPath) : Prop :=
  path.Inv capture limits stream stream

theorem Kept.new (capture : CaptureProfile) (factory : Construction) (limits : QueueLimits) (previous : Option PathStatus) :
    (PacketPath.new factory limits previous).Kept capture limits [] := by
  have hruns : ∀ run ∈ Sentinel.Media.runs [], Decodable capture run ∧ run <:+: [] :=
    List.forall_mem_singleton.2 ⟨.nil, List.nil_infix⟩
  have hbytes : (0 : Int) ≤ limits.maximumBytes := Int.natCast_nonneg _
  cases factory <;>
    exact ⟨rfl, rfl, rfl, Nat.zero_le _, hbytes, iff_of_true rfl (.inl rfl), .nil, List.nil_suffix, hruns,
      by simp [PacketPath.new, written]⟩

theorem Kept.faithful (hpath : path.Kept capture limits stream) (hstream : stream <:+: whole) :
    path.Faithful capture limits whole := by
  obtain ⟨rfl, rfl, hcounter, hpackets, hbytes, -, -, -, hruns, hcounted⟩ := hpath
  exact ⟨hruns, hstream, hpackets, hbytes, hcounter, by omega⟩

theorem Kept.getLast_pending (hpath : path.Kept capture limits stream) (hstream : stream <:+ whole)
    (hlast : last ∈ path.pending.getLast?) : last ∈ whole.getLast? := by
  obtain ⟨before, rfl⟩ := hpath.latest.trans hstream
  rw [List.getLast?_append, Option.mem_def.1 hlast]
  rfl

end PacketPath

/-! ## The pipeline -/

namespace SourcePipeline

/-- What the promise of a pipeline's paths is about. -/
structure Terms where
  capture : CaptureProfile
  recordingLimits : QueueLimits
  viewerLimits : QueueLimits

variable {terms : Terms} {stream : List CompressedPacket} {p : SourcePipeline} {packet : CompressedPacket}

/-- The paths of the pipeline keep their promise for the stream so far, of which the pipeline knows the end. -/
structure Inv (terms : Terms) (stream : List CompressedPacket) (p : SourcePipeline) : Prop where
  profile : p.profiles.capture = terms.capture
  limits : p.viewerLimits = terms.viewerLimits
  sequence : p.sequence = stream.getLast?.map CompressedPacket.sequence
  dts : p.dts = stream.getLast?.map CompressedPacket.dts
  recording : p.recording.Kept terms.capture terms.recordingLimits stream
  viewer : ∀ path ∈ p.viewer, ∃ offered, offered <:+ stream ∧ path.Kept terms.capture terms.viewerLimits offered
  released : ∀ path ∈ p.released, ∃ offered, offered <:+: stream ∧ path.Kept terms.capture terms.viewerLimits offered

theorem Inv.faithful (h : p.Inv terms stream) :
    p.Faithful terms.capture terms.recordingLimits terms.viewerLimits stream := by
  refine ⟨h.recording.faithful List.infix_rfl, h.recording.offered, ?_, ?_⟩
  · intro path hpath
    obtain ⟨offered, hoffered, hkept⟩ := h.viewer path hpath
    exact hkept.faithful hoffered.isInfix
  · intro path hpath
    obtain ⟨offered, hoffered, hkept⟩ := h.released path hpath
    exact hkept.faithful hoffered

theorem Inv.closeViewer (h : p.Inv terms stream) :
    p.closeViewer.Inv terms stream := by
  unfold SourcePipeline.closeViewer
  split
  next => exact h
  next path hviewer =>
    obtain ⟨offered, hoffered, hkept⟩ := h.viewer path hviewer
    dsimp only
    split
    next =>
      refine { h with viewer := ?_ }
      intro after hafter
      cases hafter
      exact ⟨offered, hoffered, hkept.close⟩
    next =>
      refine { h with viewer := ?_, released := ?_ }
      · intro after hafter
        cases hafter
      · intro after hafter
        rcases List.mem_cons.1 hafter with rfl | hafter
        · exact ⟨offered, hoffered.isInfix, hkept.close⟩
        · exact h.released after hafter

theorem Inv.startViewer (h : p.Inv terms stream) (factory : Construction) :
    (p.startViewer factory).Inv terms stream := by
  unfold SourcePipeline.startViewer
  split
  next => exact h
  next =>
    refine { h with viewer := ?_ }
    intro path hpath
    cases hpath
    rw [h.limits]
    exact ⟨[], List.nil_suffix, .new terms.capture factory terms.viewerLimits p.lastViewerStatus⟩

theorem Inv.addViewer (h : p.Inv terms stream) (subscriber : UUID) (factory : Construction) :
    (p.addViewer subscriber factory).2.Inv terms stream := by
  unfold SourcePipeline.addViewer
  dsimp only
  split
  next => exact { h.startViewer factory with }
  next => exact { h with }

theorem Inv.removeViewer (h : p.Inv terms stream) (subscriber : UUID) :
    (p.removeViewer subscriber).2.Inv terms stream := by
  have herased : { p with viewers := p.viewers.erase subscriber }.Inv terms stream := { h with }
  unfold SourcePipeline.removeViewer
  dsimp only
  split
  next => exact herased.closeViewer
  next => exact herased

theorem Inv.replaceViewerProfile (h : p.Inv terms stream) (claim : Claim) (profile : VideoFormat)
    (factory : Construction) :
    (p.replaceViewerProfile claim profile factory).2.Inv terms stream := by
  have hclosed := h.closeViewer
  have hupdated : { p.closeViewer with profiles := { p.profiles with viewer := profile } }.Inv terms stream :=
    { hclosed with profile := h.profile }
  unfold SourcePipeline.replaceViewerProfile
  dsimp only
  split
  next => exact h
  split
  next => exact h
  split
  next => exact h
  split
  next => exact hclosed
  split
  next => exact hclosed
  split
  next => exact hupdated
  next => exact hupdated.startViewer factory

theorem Inv.replaceInferenceProfile (h : p.Inv terms stream) (claim : Claim)
    (profile : InferenceProfile) : (p.replaceInferenceProfile claim profile).2.Inv terms stream := by
  unfold SourcePipeline.replaceInferenceProfile
  dsimp only
  split
  next => exact h
  next => exact { h with }

theorem Inv.pump (h : p.Inv terms stream) (budget : Int) :
    (p.pump budget).2.Inv terms stream := by
  unfold SourcePipeline.pump
  split
  next => exact h
  next =>
    refine { h with recording := h.recording.pump budget.toNat, viewer := ?_ }
    intro after hafter
    obtain ⟨pumped, hpumped, rfl⟩ := Option.mem_map.1 hafter
    obtain ⟨path, hpath, rfl⟩ := Option.mem_map.1 hpumped
    obtain ⟨offered, hoffered, hkept⟩ := h.viewer path hpath
    exact ⟨offered, hoffered, hkept.pump budget.toNat⟩

theorem Inv.close (h : p.Inv terms stream) :
    p.close.Inv terms stream := by
  have hrecording : { p with closed := true, recording := p.recording.close }.Inv terms stream :=
    { h with recording := h.recording.close }
  have hviewer := hrecording.closeViewer
  unfold SourcePipeline.close
  dsimp only
  split
  next => exact hviewer
  next => exact { hviewer with }

/-! ### Offering -/

theorem Inv.discontinuity (h : p.Inv terms stream) (reason : PathReason) :
    (p.discontinuity reason).Inv terms stream := by
  refine { h with recording := h.recording.discontinuity reason, viewer := ?_ }
  intro after hafter
  obtain ⟨path, hpath, rfl⟩ := Option.mem_map.1 hafter
  obtain ⟨offered, hoffered, hkept⟩ := h.viewer path hpath
  exact ⟨offered, hoffered, hkept.discontinuity reason⟩

/-- The packet can be written after whatever the two paths have pending. -/
structure Continues (capture : CaptureProfile) (packet : CompressedPacket) (p : SourcePipeline) : Prop where
  recording : ∀ last ∈ p.recording.pending.getLast?, Follows capture last packet
  viewer : ∀ path ∈ p.viewer, ∀ last ∈ path.pending.getLast?, Follows capture last packet

theorem Inv.continues_discontinuity (h : p.Inv terms stream) (reason : PathReason)
    (packet : CompressedPacket) : (p.discontinuity reason).Continues terms.capture packet := by
  refine ⟨?_, ?_⟩
  · intro last hlast
    rw [SourcePipeline.discontinuity, (h.recording.discontinuity_idles reason).pending] at hlast
    cases hlast
  · intro after hafter last hlast
    obtain ⟨path, hpath, rfl⟩ := Option.mem_map.1 hafter
    obtain ⟨offered, -, hkept⟩ := h.viewer path hpath
    rw [(hkept.discontinuity_idles reason).pending] at hlast
    cases hlast

/-- A packet that shows no reason for a discontinuity follows the last one of the stream. -/
theorem Inv.follows (h : p.Inv terms stream) (hbase : packet.timeBase = terms.capture.format.timeBase)
    (hreason : p.captureReason packet = none) (hlast : last ∈ stream.getLast?) : Follows terms.capture last packet := by
  have hlast : stream.getLast? = some last := hlast
  unfold captureReason at hreason
  rw [h.sequence, h.dts, h.profile, hlast, hbase] at hreason
  simp only [Option.map_some, Option.any_some] at hreason
  split at hreason
  next => cases hreason
  next hsequence =>
    split at hreason
    next => cases hreason
    next hdts =>
      split at hreason
      next => cases hreason
      next hgap =>
        refine ⟨?_, ?_, ?_⟩
        · simpa using hsequence
        · simpa using hdts
        · simpa using hgap

theorem Inv.continues (h : p.Inv terms stream) (hbase : packet.timeBase = terms.capture.format.timeBase)
    (hreason : p.captureReason packet = none) : p.Continues terms.capture packet := by
  refine ⟨?_, ?_⟩
  · intro last hlast
    exact h.follows hbase hreason (h.recording.getLast_pending List.suffix_rfl hlast)
  · intro path hpath last hlast
    obtain ⟨offered, hoffered, hkept⟩ := h.viewer path hpath
    exact h.follows hbase hreason (hkept.getLast_pending hoffered hlast)

theorem Inv.fanOut (h : p.Inv terms stream) (hcontinues : p.Continues terms.capture packet)
    (reason : OfferReason) : (p.fanOut packet reason).2.Inv terms (stream ++ [packet]) := by
  have hlast : (stream ++ [packet]).getLast? = some packet := List.getLast?_concat
  refine ⟨h.profile, h.limits, ?_, ?_, h.recording.offer hcontinues.recording, ?_, ?_⟩
  · rw [hlast]
    rfl
  · rw [hlast]
    rfl
  · intro after hafter
    obtain ⟨result, hresult, rfl⟩ := Option.mem_map.1 hafter
    obtain ⟨path, hpath, rfl⟩ := Option.mem_map.1 hresult
    obtain ⟨offered, hoffered, hkept⟩ := h.viewer path hpath
    exact ⟨offered ++ [packet], (List.suffix_append_inj_of_length_eq rfl).2 ⟨hoffered, rfl⟩,
      hkept.offer (hcontinues.viewer path hpath)⟩
  · intro path hpath
    obtain ⟨offered, hoffered, hkept⟩ := h.released path hpath
    exact ⟨offered, hoffered.trans (List.prefix_append _ _).isInfix, hkept⟩

/-- The packet that `offer` gave to the paths, if its answer says so. -/
def takenWith (packet : CompressedPacket) : OfferReason → List CompressedPacket
  | .accepted => [packet]
  | .discontinuous _ => [packet]
  | _ => []

theorem Inv.offer (h : p.Inv terms stream) (packet : CompressedPacket) :
    (p.offer packet).2.Inv terms (stream ++ takenWith packet (p.offer packet).1.reason) := by
  have hrefused : p.Inv terms (stream ++ []) := by
    rw [List.append_nil]
    exact h
  unfold SourcePipeline.offer
  split
  next => exact hrefused
  split
  next => exact hrefused
  split
  next => exact hrefused
  split
  next =>
    have hmarked : { p with renegotiationRequired := true }.Inv terms (stream ++ []) := { hrefused with }
    exact hmarked.discontinuity .timeBaseChanged
  next hbase =>
    rw [h.profile] at hbase
    split
    next reason hreason => exact (h.discontinuity reason).fanOut (h.continues_discontinuity reason packet) _
    next hreason => exact h.fanOut (h.continues (not_not.1 hbase) hreason) _

/-! ### Whole runs -/

theorem Inv.whenOpen (h : p.Inv terms stream) {operation : Output × SourcePipeline} (claim : Claim)
    (hoperation : operation.2.Inv terms stream) :
    (p.whenOpen claim operation).2.Inv terms stream := by
  unfold SourcePipeline.whenOpen
  split
  next => exact h
  next =>
    split
    next => exact h
    next => exact hoperation

theorem takenBy_offer (p : SourcePipeline) (packet : CompressedPacket) (claim : Claim) :
    takenBy (Event.of step p (.offer packet, claim)) = none ∧ (step (.offer packet, claim) p).2 = p ∨
      (takenBy (Event.of step p (.offer packet, claim))).toList = takenWith packet (p.offer packet).1.reason ∧
        (step (.offer packet, claim) p).2 = (p.offer packet).2 := by
  unfold Event.of step SourcePipeline.whenOpen
  dsimp only
  split
  next => exact .inl ⟨rfl, rfl⟩
  next =>
    split
    next => exact .inl ⟨rfl, rfl⟩
    next =>
      refine .inr ⟨?_, rfl⟩
      obtain ⟨recordingQueued, viewerQueued, reason⟩ := (p.offer packet).1
      cases reason <;> rfl

theorem Inv.step (h : p.Inv terms stream) (input : Input × Claim) :
    (step input p).2.Inv terms (stream ++ (takenBy (Event.of step p input)).toList) := by
  obtain ⟨input, claim⟩ := input
  -- every operation but `offer` gives no packet to the paths
  have hsilent {q : SourcePipeline} (hq : q.Inv terms stream) :
      q.Inv terms (stream ++ []) := by
    rw [List.append_nil]
    exact hq
  cases input with
  | addViewer subscriber factory => exact hsilent (h.whenOpen claim (h.addViewer subscriber factory))
  | removeViewer subscriber => exact hsilent (h.removeViewer subscriber)
  | replaceViewerProfile profile factory => exact hsilent (h.whenOpen claim (h.replaceViewerProfile claim profile factory))
  | replaceInferenceProfile profile => exact hsilent (h.whenOpen claim (h.replaceInferenceProfile claim profile))
  | pump budget => exact hsilent (h.whenOpen claim (h.pump budget))
  | close => exact hsilent h.close
  | offer packet =>
    rcases takenBy_offer p packet claim with ⟨htaken, hstate⟩ | ⟨htaken, hstate⟩
    · rw [htaken, hstate]
      exact hsilent h
    · rw [htaken, hstate]
      exact h.offer packet

theorem taken_cons (e : Event SourcePipeline (Input × Claim) Output) (h : List (Event SourcePipeline (Input × Claim) Output)) :
    taken (e :: h) = taken h ++ (takenBy e).toList := by
  unfold taken
  rw [List.filterMap_cons]
  split
  next hnone => rw [hnone, Option.toList_none, List.append_nil]
  next packet hsome => rw [hsome, List.reverse_cons, Option.toList_some]

theorem Inv.reaches {start : SourcePipeline} (hstart : start.Inv terms [])
    {h : List (Event SourcePipeline (Input × Claim) Output)} (hs : Reaches SourcePipeline.step start h p) :
    p.Inv terms (taken h) := by
  induction hs with
  | start => exact hstart
  | next hs input ih =>
    rw [taken_cons]
    exact ih.step input

theorem new_inv {sourceId streamId : UUID} {profiles : SourceProfiles} {recordingLimits viewerLimits : QueueLimits}
    {factory : Construction} {admission : Option AdmissionLease}
    (hnew : new sourceId streamId profiles recordingLimits viewerLimits factory admission = .ok p) :
    p.Inv ⟨profiles.capture, recordingLimits, viewerLimits⟩ [] := by
  unfold new at hnew
  split at hnew
  next => cases hnew
  split at hnew
  next => cases hnew
  split at hnew
  next => cases hnew
  next =>
    cases hnew
    refine ⟨rfl, rfl, rfl, rfl, .new profiles.capture factory recordingLimits none, ?_, ?_⟩
    · intro path hpath
      cases hpath
    · intro path hpath
      cases hpath

/-- Whatever is done with a pipeline and however its adapters fail, every adapter sees decodable runs of the stream with no
packet missing, every queue stays within its limits, and every packet offered to a path is accounted for. -/
theorem adapters_see_decodable_runs {sourceId streamId : UUID} {profiles : SourceProfiles} {recordingLimits viewerLimits : QueueLimits}
    {factory : Construction} {admission : Option AdmissionLease} {start p : SourcePipeline}
    {h : List (Event SourcePipeline (Input × Claim) Output)}
    (hnew : new sourceId streamId profiles recordingLimits viewerLimits factory admission = .ok start)
    (hs : Reaches step start h p) : p.Faithful profiles.capture recordingLimits viewerLimits (taken h) :=
  ((new_inv hnew).reaches hs).faithful

/-- A capture of one tick a second whose packets may be ten seconds apart. -/
def secondsCapture : CaptureProfile := ⟨⟨0, 1, true, true, by decide⟩, 10, by decide⟩

def secondsProfiles : SourceProfiles :=
  ⟨secondsCapture, secondsCapture.format, ⟨1, 1, 1, 1, by decide, by decide, by decide⟩, secondsCapture.format⟩

def secondsPacket (sequence : Nat) (keyframe : Bool) : CompressedPacket :=
  ⟨0, 0, sequence, sequence, sequence, 1, keyframe, [0], by decide, by decide⟩

def secondsLimits : QueueLimits := ⟨4, 64, by decide, by decide⟩

/-- The pipeline of the capture, with an adapter that never fails. -/
def secondsPipeline : SourcePipeline where
  sourceId := 0
  streamId := 0
  claimed := false
  profiles := secondsProfiles
  viewerLimits := secondsLimits
  recording := PacketPath.new (.made fun _ _ => true) secondsLimits none
  inference := InferenceSampler.new secondsProfiles.inference 0

/-- The adapter of a viewer that raises from the packet numbered 5 on. -/
def failingAdapter : PacketAdapter
  | _, .write packet => packet.sequence < 5
  | _, _ => true

/-- A viewer joins after the first keyframe and packet 3 is lost, so both adapters are reset; the viewer's raises at packet 5. -/
def watchedRun : List (Input × Claim) :=
  [.offer (secondsPacket 0 true), .addViewer 7 (.made failingAdapter), .offer (secondsPacket 1 false),
    .offer (secondsPacket 2 true), .pump 8, .offer (secondsPacket 4 false), .offer (secondsPacket 5 true),
    .pump 8].map (·, ⟨true, fun _ => true, fun _ => true⟩)

/-- The sequence numbers written to the adapter of a path, cut at every reset, failure and close, the latest run first. -/
def writtenRuns (path : PacketPath) : List (List Nat) := (runs path.calls).map (·.map (·.sequence))

theorem adapters_see_decodable_runs_watched :
    new 0 0 secondsProfiles secondsLimits secondsLimits (.made fun _ _ => true) none = .ok secondsPipeline ∧
      ∃ h p, Reaches step secondsPipeline h p ∧ writtenRuns p.recording = [[5], [0, 1, 2]] ∧
        p.viewer.map writtenRuns = some [[], [], [], [2]] ∧
        p.viewer.map (·.reason) = some .adapterWriteFailed ∧
        p.Faithful secondsCapture secondsLimits secondsLimits (taken h) := by
  have hnew : new 0 0 secondsProfiles secondsLimits secondsLimits (.made fun _ _ => true) none = .ok secondsPipeline := rfl
  have hrun := Reaches.perform step secondsPipeline watchedRun
  exact ⟨hnew, _, _, hrun, by decide +kernel, by decide +kernel, by decide +kernel,
    adapters_see_decodable_runs hnew hrun⟩

end SourcePipeline

end Sentinel.Media
