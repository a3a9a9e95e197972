import Sesc.Events.InOrder
import Sesc.Network.RandomLoadNetwork

/-!
# Messages in order

Every message of a pair of endpoints is to arrive no earlier than the one before.  The correction
of `CalcTime` subtracts the base delay from the arrival time of the last message and adds the
packet time only, so that it brings a message too early when its base delay is longer than its
packet time.
-/

namespace Sesc.Network.System

open Lib Sesc.Events

/-- The deliveries of the messages from one node to another. -/
def isBetween (fromNode toNode : NodeID) : Callback → Bool
  | .deliver m => m.sourceNode = fromNode && m.destinationNode = toNode
  | _ => false

/-- The messages that have been sent from one node to another, with their delivery times. -/
def sent (s : System) (fromNode toNode : NodeID) : List (TickTime × Callback) :=
  s.events.scheduledOf (isBetween fromNode toNode)

/-- The messages that have been delivered, with the ticks at which they have been. -/
def delivered (s : System) (fromNode toNode : NodeID) : List (TickTime × Callback) :=
  s.events.executedOf (isBetween fromNode toNode)

/-- The messages of every pair of endpoints are delivered in the order in which they are sent, and
the delivery times do not decrease. -/
def InOrder (s : System) : Prop :=
  ∀ fromNode toNode, (s.sent fromNode toNode).Pairwise (fun e e' => e.1 ≤ e'.1) ∧
    s.delivered fromNode toNode <+: s.sent fromNode toNode

/-- The base delay of a message that would overtake the last one is not longer than its packet
time, and its arrival time is a number of 64 bits. -/
def KeepsPace (cfg : NetworkConfig) (s : System) : Event → Prop
  | .recvMsg m _ rand _ _ =>
    ∀ fromNode ∈ cfg.nodeToConnection m.sourceNode, ∀ toNode ∈ cfg.nodeToConnection m.destinationNode,
      let last := s.network.mostRecentMsg fromNode toNode
      let drawn := cfg.calculator.baseTime s.network.packetsInTransit rand
      (s.now + drawn < last → drawn ≤ cfg.calculator.packetTime m) ∧
        max last (s.now + drawn) + cfg.calculator.packetTime m < tickRange
  | _ => True

variable {cfg : NetworkConfig} {s s' : System} {m : NetworkMsg}
  {connectionID rand freshFunction freshContainer : ℕ}

/-- The correction brings a message to the last one or after it. -/
lemma arrival_correctedTime {last time dtBase dtPacket : ℕ}
    (hpace : time + dtBase < last → dtBase ≤ dtPacket)
    (hbound : max last (time + dtBase) + dtPacket < tickRange) :
    last ≤ time + RandomLoadNetwork.correctedTime last time dtBase + dtPacket ∧
      time + RandomLoadNetwork.correctedTime last time dtBase + dtPacket < tickRange := by
  have hsum : (time + dtBase) % tickRange = time + dtBase := Nat.mod_eq_of_lt (by omega)
  have hcorrected : RandomLoadNetwork.correctedTime last time dtBase =
      if time + dtBase < last then last - (time + dtBase) else dtBase := by
    rw [RandomLoadNetwork.correctedTime, hsum]
  rw [hcorrected]
  split
  · rename_i hlast
    have hle : dtBase ≤ dtPacket := hpace hlast
    omega
  · omega

/-- The arrival time that `CalcTime` keeps is that for which the delivery is scheduled, and not
before the last one. -/
lemma calcTime_spec {n n' : RandomLoadNetwork} {fromNode toNode : ℕ} {time delay : ℕ}
    (henforce : cfg.calculator.enforceInOrder = true)
    (hpace : time + cfg.calculator.baseTime n.packetsInTransit rand < n.mostRecentMsg fromNode toNode →
      cfg.calculator.baseTime n.packetsInTransit rand ≤ cfg.calculator.packetTime m)
    (hbound : max (n.mostRecentMsg fromNode toNode)
      (time + cfg.calculator.baseTime n.packetsInTransit rand) + cfg.calculator.packetTime m
        < tickRange)
    (h : n.calcTime cfg m fromNode toNode time rand = .ok (delay, n')) :
    n.mostRecentMsg fromNode toNode ≤ (time + delay) % tickRange ∧
      n' = n.setMostRecentMsg fromNode toNode ((time + delay) % tickRange) := by
  rw [RandomLoadNetwork.calcTime] at h
  dsimp only at h
  rw [if_pos henforce] at h
  obtain ⟨-, h⟩ := check_bind_eq_ok.1 h
  obtain ⟨hle, hlt⟩ := arrival_correctedTime hpace hbound
  cases h
  have hdelay : ∀ corrected packet : ℕ, time + corrected + packet < tickRange →
      (time + (corrected + packet) % tickRange) % tickRange = time + corrected + packet := by
    intro corrected packet hlt
    rw [Nat.mod_eq_of_lt (a := corrected + packet) (by omega), ← Nat.add_assoc]
    exact Nat.mod_eq_of_lt hlt
  rw [hdelay _ _ hlt, Nat.mod_eq_of_lt hlt]
  exact ⟨hle, rfl⟩

/-! ## The steps -/

/-- The messages of every pair of nodes are in order, and none arrives after the last one of its
pair of connections. -/
structure Inv (cfg : NetworkConfig) (s : System) : Prop where
  ordered : ∀ fromNode toNode, s.events.Ordered (isBetween fromNode toNode)
  chronological : ∀ fromNode toNode, Events.System.Chronological (s.sent fromNode toNode)
  le_mostRecent : ∀ time m, (time, Callback.deliver m) ∈ s.events.scheduled →
    ∃ fromNode ∈ cfg.nodeToConnection m.sourceNode, ∃ toNode ∈ cfg.nodeToConnection m.destinationNode,
      time ≤ s.network.mostRecentMsg fromNode toNode

lemma Inv.inOrder (hs : s.Inv cfg) : s.InOrder :=
  fun fromNode toNode => ⟨hs.chronological fromNode toNode,
    (hs.ordered fromNode toNode).isPrefix (hs.chronological fromNode toNode)⟩

/-- Nothing is sent. -/
lemma Inv.silent (hs : s.Inv cfg)
    (hordered : ∀ fromNode toNode, s'.events.Ordered (isBetween fromNode toNode))
    (hlog : s'.events.scheduled = s.events.scheduled)
    (hnetwork : s'.network.mostRecentMsg = s.network.mostRecentMsg) : s'.Inv cfg where
  ordered := hordered
  chronological fromNode toNode := by
    have h := hs.chronological fromNode toNode
    rw [sent, Events.System.scheduledOf] at h ⊢
    rw [hlog]
    exact h
  le_mostRecent := by
    rw [hlog, hnetwork]
    exact hs.le_mostRecent

/-- A callback that is no delivery is scheduled. -/
lemma Inv.scheduleOther {g : ℕ} {a : Callback} {request : EventManager.Request}
    (hs : s.Inv cfg) (ha : ∀ m, a ≠ .deliver m)
    (hnetwork : s'.network.mostRecentMsg = s.network.mostRecentMsg)
    (h : s.events.schedule g a request freshFunction freshContainer = .ok s'.events) :
    s'.Inv cfg := by
  obtain ⟨hscheduled, -⟩ := Events.System.logs_of_schedule h
  have hnot : ∀ fromNode toNode, isBetween fromNode toNode a = false := by
    intro fromNode toNode
    cases a with
    | deliver m => exact absurd rfl (ha m)
    | transmit m connectionID => rfl
    | other k => rfl
  refine ⟨fun fromNode toNode => (hs.ordered fromNode toNode).schedule h,
    fun fromNode toNode => ?_, fun time m hm => ?_⟩
  · have hkept : s'.sent fromNode toNode = s.sent fromNode toNode := by
      rw [sent, sent, Events.System.scheduledOf, hscheduled, List.filter_append,
        List.filter_singleton, hnot]
      exact List.append_nil _
    rw [hkept]
    exact hs.chronological fromNode toNode
  · rw [hnetwork]
    rw [hscheduled] at hm
    rcases List.mem_append.1 hm with hm | hm
    · exact hs.le_mostRecent time m hm
    · cases List.mem_singleton.1 hm
      exact absurd rfl (ha m)

lemma mostRecentMsg_onMsgDelivered {n n' : RandomLoadNetwork} (h : n.onMsgDelivered cfg = .ok n') :
    n'.mostRecentMsg = n.mostRecentMsg := by
  rw [RandomLoadNetwork.onMsgDelivered] at h
  split at h
  · obtain ⟨-, h⟩ := check_bind_eq_ok.1 h
    cases h
    rfl
  · cases h
    rfl

lemma mostRecentMsg_onMsgSend {n n' : RandomLoadNetwork} (h : n.onMsgSend cfg = .ok n') :
    n'.mostRecentMsg = n.mostRecentMsg := by
  rw [RandomLoadNetwork.onMsgSend] at h
  split at h
  · obtain ⟨-, h⟩ := check_bind_eq_ok.1 h
    cases h
    rfl
  · cases h
    rfl

lemma Inv.resume (hs : s.Inv cfg) (h : s.resume cfg freshFunction freshContainer = .ok s') :
    s'.Inv cfg := by
  obtain ⟨events, hevents, h⟩ := bind_eq_ok.1 h
  have hrun : Inv cfg { s with events } :=
    hs.silent (fun fromNode toNode => (hs.ordered fromNode toNode).resume hevents)
      (Events.System.logs_of_resume hevents).1 rfl
  split at h
  · obtain ⟨fromNode, -, h⟩ := bind_eq_ok.1 h
    obtain ⟨toNode, -, h⟩ := bind_eq_ok.1 h
    obtain ⟨network, hnetwork, h⟩ := bind_eq_ok.1 h
    obtain ⟨events', hevents', h⟩ := bind_eq_ok.1 h
    cases h
    refine hrun.scheduleOther ?_ (mostRecentMsg_onMsgDelivered hnetwork) hevents'
    exact fun _ h => nomatch h
  · cases h
    exact hrun

/-- A message that keeps pace arrives after the last one of its pair. -/
lemma Inv.recvMsg (henforce : cfg.calculator.enforceInOrder = true) (hs : s.Inv cfg)
    (hpace : KeepsPace cfg s (.recvMsg m connectionID rand freshFunction freshContainer))
    (h : s.recvMsg cfg m connectionID rand freshFunction freshContainer = .ok s') :
    s'.Inv cfg := by
  obtain ⟨fromNode, hfrom, h⟩ := bind_eq_ok.1 h
  obtain ⟨toNode, hto, h⟩ := bind_eq_ok.1 h
  obtain ⟨-, h⟩ := check_bind_eq_ok.1 h
  obtain ⟨⟨delay, network⟩, hcalc, h⟩ := bind_eq_ok.1 h
  obtain ⟨network', hsend, h⟩ := bind_eq_ok.1 h
  obtain ⟨events, hevents, h⟩ := bind_eq_ok.1 h
  cases h
  replace hfrom := elim_error_eq_ok.1 hfrom
  replace hto := elim_error_eq_ok.1 hto
  obtain ⟨hclamped, hbound⟩ := hpace fromNode hfrom toNode hto
  obtain ⟨hle, hnetwork⟩ := calcTime_spec henforce hclamped hbound hcalc
  obtain ⟨hscheduled, -⟩ := Events.System.logs_of_schedule hevents
  have hrecent := mostRecentMsg_onMsgSend hsend
  -- the new arrival time, and the arrival times of the other pairs of connections
  have hlast : ∀ i j, network'.mostRecentMsg i j =
      if i = fromNode ∧ j = toNode then s.events.manager.timeOf (.after delay)
      else s.network.mostRecentMsg i j := by
    intro i j
    rw [hrecent, hnetwork, RandomLoadNetwork.setMostRecentMsg]
    dsimp only
    by_cases hi : i = fromNode
    · subst hi
      rw [Function.update_self]
      by_cases hj : j = toNode
      · subst hj
        rw [Function.update_self, if_pos ⟨rfl, rfl⟩]
        rfl
      · rw [Function.update_of_ne hj, if_neg fun h => hj h.2]
    · rw [Function.update_of_ne hi, if_neg fun h => hi h.1]
  have hgrows : ∀ i j, s.network.mostRecentMsg i j ≤ network'.mostRecentMsg i j := by
    intro i j
    rw [hlast]
    split
    · rename_i hij
      rw [hij.1, hij.2]
      exact hle
    · exact Nat.le_refl _
  have hold : ∀ time m, (time, Callback.deliver m) ∈ s.events.scheduled →
      ∃ i ∈ cfg.nodeToConnection m.sourceNode, ∃ j ∈ cfg.nodeToConnection m.destinationNode,
        time ≤ network'.mostRecentMsg i j := by
    intro time m' hm'
    obtain ⟨i, hi, j, hj, htime⟩ := hs.le_mostRecent time m' hm'
    exact ⟨i, hi, j, hj, Nat.le_trans htime (hgrows i j)⟩
  refine ⟨fun i j => (hs.ordered i j).schedule hevents, fun i j => ?_, fun time m' hm' => ?_⟩
  · have hsent : sent ⟨network', events⟩ i j =
        s.sent i j ++ [(s.events.manager.timeOf (.after delay), .deliver m)].filter
          (fun e => isBetween i j e.2) := by
      rw [sent, Events.System.scheduledOf, hscheduled, List.filter_append]
      rfl
    rw [hsent, Events.System.Chronological, List.pairwise_append]
    refine ⟨hs.chronological i j, ?_, fun e he e' he' => ?_⟩
    · exact (List.pairwise_singleton _ _).filter _
    · -- the earlier messages of the pair have arrived by the last arrival time
      obtain ⟨he', hbetween'⟩ := List.mem_filter.1 he'
      rw [List.mem_singleton.1 he'] at hbetween' ⊢
      obtain ⟨hmem, hbetween⟩ := List.mem_filter.1 he
      obtain ⟨time, a⟩ := e
      cases a with
      | deliver m' =>
        obtain ⟨i', hi', j', hj', htime⟩ := hs.le_mostRecent time m' hmem
        simp only [isBetween, Bool.and_eq_true, decide_eq_true_eq] at hbetween hbetween'
        rw [hbetween.1, ← hbetween'.1, hfrom] at hi'
        rw [hbetween.2, ← hbetween'.2, hto] at hj'
        cases hi'
        cases hj'
        exact Nat.le_trans htime hle
      | transmit => cases hbetween
      | other => cases hbetween
  · rw [hscheduled] at hm'
    rcases List.mem_append.1 hm' with hm' | hm'
    · exact hold time m' hm'
    · cases List.mem_singleton.1 hm'
      have harrival := hlast fromNode toNode
      rw [if_pos ⟨rfl, rfl⟩] at harrival
      exact ⟨fromNode, hfrom, toNode, hto, Nat.le_of_eq harrival.symm⟩

/-- Messages are delivered in order in every run in which every message keeps pace. -/
theorem inOrder_of_runWhere (cfg : NetworkConfig)
    (henforce : cfg.calculator.enforceInOrder = true) (hstart : cfg.startTick < tickRange)
    (es : List Event) (s : System) (h : (machine cfg).RunWhere (KeepsPace cfg) es s) :
    s.InOrder := by
  have hinv : s.Inv cfg := by
    refine h.invariant ⟨fun _ _ => .new hstart, fun _ _ => .nil, fun _ _ hm => nomatch hm⟩ ?_
    intro s e s' hs hpace hstep
    cases e with
    | recvMsg m connectionID rand freshFunction freshContainer =>
      exact hs.recvMsg henforce hpace hstep
    | scheduleOther g k request freshFunction freshContainer =>
      obtain ⟨events, hevents, hstep⟩ := bind_eq_ok.1 hstep
      cases hstep
      exact hs.scheduleOther (fun _ h => by cases h) rfl hevents
    | processTick =>
      obtain ⟨manager, hmanager, hstep⟩ := bind_eq_ok.1 hstep
      cases hstep
      exact hs.silent (fun i j => (hs.ordered i j).processTick hmanager) rfl rfl
    | resume freshFunction freshContainer => exact hs.resume hstep
  exact hinv.inOrder

/-! ### Two messages of a pair -/

instance decidableKeepsPace (cfg : NetworkConfig) (s : System) (e : Event) :
    Decidable (KeepsPace cfg s e) :=
  match e with
  | .recvMsg m _ rand _ _ => inferInstanceAs (Decidable (
      ∀ fromNode ∈ cfg.nodeToConnection m.sourceNode,
        ∀ toNode ∈ cfg.nodeToConnection m.destinationNode,
          (s.now + cfg.calculator.baseTime s.network.packetsInTransit rand <
              s.network.mostRecentMsg fromNode toNode →
            cfg.calculator.baseTime s.network.packetsInTransit rand ≤
              cfg.calculator.packetTime m) ∧
          max (s.network.mostRecentMsg fromNode toNode)
              (s.now + cfg.calculator.baseTime s.network.packetsInTransit rand) +
            cfg.calculator.packetTime m < tickRange))
  | .scheduleOther _ _ _ _ _ => .isTrue trivial
  | .processTick => .isTrue trivial
  | .resume _ _ => .isTrue trivial

/-- Nodes 0 and 1, delays of 10 to 20 ticks and `perByte` for each byte. -/
def twoNodes (perByte : TimeDelta) : NetworkConfig where
  calculator := .random
    { minTime := 10
      maxTime := 20
      perByte := perByte
      enforceInOrder := true
      minTime_lt_maxTime := by decide }
  nodeToConnection := fun node => if node = 0 then some 0 else if node = 1 then some 1 else none
  nodeCount := 2
  latency := fun _ => 0
  startTick := 0
  reserve := fun _ => 0
  maxReserve := fun _ => 10000

/-- A message of 9 bytes from node 0 to node 1. -/
def smallMsg (id : MessageID) : NetworkMsg := ⟨0, 1, false, id, 5⟩

/-- Two messages are sent at tick 0, the first with the longest delay and the second with the
shortest one, and `n` ticks are processed. -/
def overtakingRun (n : ℕ) : List Event :=
  [Event.recvMsg (smallMsg 1) 0 10 0 0, Event.recvMsg (smallMsg 2) 0 0 1 1] ++
    List.replicate n Event.processTick ++ [Event.resume 0 2]

/-- With 2 ticks for a byte the second message waits for the first one. -/
theorem inOrder_slowRun : ∃ s, (machine (twoNodes 2)).Run (overtakingRun 39) s ∧
    s.sent 0 1 = [(38, .deliver (smallMsg 1)), (46, .deliver (smallMsg 2))] ∧
    s.delivered 0 1 = [(38, .deliver (smallMsg 1))] ∧ s.InOrder := by
  have hrun : succeeds (((machine (twoNodes 2)).guarded
      (fun s e => decide (KeepsPace (twoNodes 2) s e)) .noSuchEvent).exec
        (machine (twoNodes 2)).init (overtakingRun 39)) (fun s =>
      decide (s.sent 0 1 = [(38, .deliver (smallMsg 1)), (46, .deliver (smallMsg 2))] ∧
        s.delivered 0 1 = [(38, .deliver (smallMsg 1))])) = true := by
    decide +kernel
  obtain ⟨s, hs, htest⟩ := succeeds_iff.1 hrun
  obtain ⟨hsent, hdelivered⟩ := of_decide_eq_true htest
  have hwhere : (machine (twoNodes 2)).RunWhere (KeepsPace (twoNodes 2)) (overtakingRun 39) s :=
    (Machine.run_of_exec hs).of_guarded.mono fun _ _ => of_decide_eq_true
  exact ⟨s, hwhere.run, hsent, hdelivered,
    inOrder_of_runWhere (twoNodes 2) rfl (by decide) (overtakingRun 39) s hwhere⟩

/-- With 1 tick for a byte the second message is to arrive at tick 28, one before the first, and
it is delivered first. -/
theorem not_inOrder_overtakingRun : ∃ s, (machine (twoNodes 1)).Run (overtakingRun 29) s ∧
    s.sent 0 1 = [(29, .deliver (smallMsg 1)), (28, .deliver (smallMsg 2))] ∧
    s.delivered 0 1 = [(28, .deliver (smallMsg 2))] ∧ ¬s.InOrder := by
  have hrun : succeeds ((machine (twoNodes 1)).exec (machine (twoNodes 1)).init
      (overtakingRun 29)) (fun s =>
        decide (s.sent 0 1 = [(29, .deliver (smallMsg 1)), (28, .deliver (smallMsg 2))] ∧
          s.delivered 0 1 = [(28, .deliver (smallMsg 2))])) = true := by
    decide +kernel
  obtain ⟨s, hs, htest⟩ := succeeds_iff.1 hrun
  obtain ⟨hsent, hdelivered⟩ := of_decide_eq_true htest
  refine ⟨s, Machine.run_of_exec hs, hsent, hdelivered, fun h => ?_⟩
  have hchronological := (h 0 1).1
  rw [hsent] at hchronological
  revert hchronological
  decide

end Sesc.Network.System
