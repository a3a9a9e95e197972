import Mathlib.Data.List.Count
import Mathlib.Data.List.Nodup
import Mathlib.Data.List.Perm.Subperm
import Mathlib.Data.Option.Basic
import Sesc.Events.EventManager

/-!
# Every callback runs once

What an event manager has still to call at a tick is what has been scheduled for it and has not
been executed.  The function objects that are queued, and the one that is being executed, are
distinct objects in use, so that none of them is recycled too early.
-/

namespace Sesc.Events

open Lib

/-! ## Objects that are held -/

/-- The objects that are queued and the one that is being executed are in use and distinct. -/
structure Held {ι κ : Type*} (inUse : ι → Prop) (queue : κ → List ι) (running : Option ι) :
    Prop where
  queued : ∀ t, ∀ f ∈ queue t, inUse f
  nodup : ∀ t, (queue t).Nodup
  disjoint : ∀ t t', t ≠ t' → ∀ f ∈ queue t, f ∉ queue t'
  running : ∀ f, running = some f → inUse f ∧ ∀ t, f ∉ queue t

namespace Held

variable {ι κ : Type*} {inUse inUse' : ι → Prop} {queue : κ → List ι} {running : Option ι}
  {f : ι} {t : κ} {rest : List ι}

lemma nil : Held inUse (fun _ : κ => []) none where
  queued _ _ hf := absurd hf List.not_mem_nil
  nodup _ := List.nodup_nil
  disjoint _ _ _ _ hf := absurd hf List.not_mem_nil
  running _ hf := nomatch hf

/-- An object that was not in use is queued. -/
lemma enqueue [DecidableEq κ] (h : Held inUse queue running) (hf : ¬inUse f)
    (huse : ∀ g, inUse' g ↔ g = f ∨ inUse g) :
    Held inUse' (Function.update queue t (queue t ++ [f])) running := by
  have hmem : ∀ g u, g ∈ Function.update queue t (queue t ++ [f]) u →
      g ∈ queue u ∨ u = t ∧ g = f := by
    intro g u hg
    by_cases hu : u = t
    · subst hu
      rw [Function.update_self, List.mem_append, List.mem_singleton] at hg
      exact hg.imp_right fun h => ⟨rfl, h⟩
    · rw [Function.update_of_ne hu] at hg
      exact .inl hg
  have hnew : ∀ u, f ∉ queue u := fun u hfu => hf (h.queued u f hfu)
  refine ⟨fun u g hg => ?_, fun u => ?_, fun u u' huu' g hg hg' => ?_, fun g hg => ?_⟩
  · rcases hmem g u hg with hold | ⟨-, rfl⟩
    · exact (huse g).2 (.inr (h.queued u g hold))
    · exact (huse g).2 (.inl rfl)
  · by_cases hu : u = t
    · subst hu
      rw [Function.update_self, List.nodup_append]
      refine ⟨h.nodup u, List.nodup_singleton f, fun x hx y hy => ?_⟩
      rw [List.mem_singleton.1 hy]
      rintro rfl
      exact hnew u hx
    · rw [Function.update_of_ne hu]
      exact h.nodup u
  · rcases hmem g u hg with hold | ⟨rfl, rfl⟩
    · rcases hmem g u' hg' with hold' | ⟨-, rfl⟩
      · exact h.disjoint u u' huu' g hold hold'
      · exact hnew u hold
    · rcases hmem g u' hg' with hold' | ⟨rfl, -⟩
      · exact hnew u' hold'
      · exact huu' rfl
  · obtain ⟨hguse, hgqueue⟩ := h.running g hg
    refine ⟨(huse g).2 (.inr hguse), fun u hgu => ?_⟩
    rcases hmem g u hgu with hold | ⟨-, rfl⟩
    · exact hgqueue u hold
    · exact hf hguse

/-- The first object of a queue is executed. -/
lemma dequeue [DecidableEq κ] (h : Held inUse queue running) (hqueue : queue t = f :: rest) :
    Held inUse (Function.update queue t rest) (some f) := by
  have hsub : ∀ u, ∀ g ∈ Function.update queue t rest u, g ∈ queue u := by
    intro u g hg
    by_cases hu : u = t
    · subst hu
      rw [Function.update_self] at hg
      rw [hqueue]
      exact .tail _ hg
    · rw [Function.update_of_ne hu] at hg
      exact hg
  have hf : f ∈ queue t := by
    rw [hqueue]
    exact .head _
  refine ⟨fun u g hg => h.queued u g (hsub u g hg), fun u => ?_,
    fun u u' huu' g hg hg' => h.disjoint u u' huu' g (hsub u g hg) (hsub u' g hg'), ?_⟩
  · by_cases hu : u = t
    · subst hu
      have hnodup := h.nodup u
      rw [hqueue] at hnodup
      rw [Function.update_self]
      exact hnodup.of_cons
    · rw [Function.update_of_ne hu]
      exact h.nodup u
  · rintro g ⟨⟩
    refine ⟨h.queued t f hf, fun u hfu => ?_⟩
    by_cases hu : u = t
    · subst hu
      have hnodup := h.nodup u
      rw [hqueue] at hnodup
      rw [Function.update_self] at hfu
      exact (List.nodup_cons.1 hnodup).1 hfu
    · exact h.disjoint t u (Ne.symm hu) f hf (hsub u f hfu)

/-- The object that has been executed is no longer in use. -/
lemma release (h : Held inUse queue (some f)) (huse : ∀ g, inUse' g ↔ g ≠ f ∧ inUse g) :
    Held inUse' queue none := by
  refine ⟨fun u g hg => ?_, h.nodup, h.disjoint, fun g hg => nomatch hg⟩
  refine (huse g).2 ⟨?_, h.queued u g hg⟩
  rintro rfl
  exact (h.running g rfl).2 u hg

end Held

namespace EventManager

variable {γ : Type} {m m' : EventManager γ} {t time : TickTime} {f : StoredFunction}
  {arguments : γ}

/-- The function object has been taken from its pool. -/
def FunctionInUse (m : EventManager γ) (f : StoredFunction) : Prop :=
  (m.functionPool f.generator).InUse f.address

/-- The function objects that are still to be called at a tick. -/
def queue (m : EventManager γ) (t : TickTime) : List StoredFunction :=
  ((m.scheduleSet t).elim [] m.container).drop (if t = m.currentTick then m.loop.done else 0)

/-- The function object that is being executed. -/
def running (m : EventManager γ) : Option StoredFunction :=
  match m.loop with
  | .calling _ f => some f
  | _ => none

/-! ## Containers -/

/-- The containers that are in the queue are distinct, in use, and none is for a tick in the
past; those in the pool are empty. -/
structure Containers (m : EventManager γ) : Prop where
  tick_lt : m.currentTick < tickRange
  time : ∀ t v, m.scheduleSet t = some v → m.currentTick ≤ t ∧ t < tickRange
  inUse : ∀ t v, m.scheduleSet t = some v → m.containerPool.InUse v
  injective : ∀ t t' v, m.scheduleSet t = some v → m.scheduleSet t' = some v → t = t'
  bank_empty : ∀ v ∈ m.containerPool.bank, m.container v = []
  loop : m.loop ≠ .idle →
    ∃ v, m.scheduleSet m.currentTick = some v ∧ m.loop.done ≤ (m.container v).length

lemma queue_of_none (h : m.scheduleSet t = none) : m.queue t = [] := by
  rw [queue, h]
  exact List.drop_nil

lemma queue_of_some {v : ℕ} (h : m.scheduleSet t = some v) :
    m.queue t = (m.container v).drop (if t = m.currentTick then m.loop.done else 0) := by
  rw [queue, h]
  rfl

/-- Nothing is queued for the past. -/
lemma Containers.queue_of_lt (h : m.Containers) (ht : t < m.currentTick) : m.queue t = [] := by
  refine queue_of_none ?_
  rcases hv : m.scheduleSet t with _ | v
  · rfl
  · exact absurd (h.time t v hv).1 (Nat.not_le.2 ht)

/-- The calls that have begun are calls of function objects in the container. -/
lemma Containers.done_le (h : m.Containers) {v : ℕ} (hv : m.scheduleSet t = some v) :
    (if t = m.currentTick then m.loop.done else 0) ≤ (m.container v).length := by
  split
  · rename_i ht
    by_cases hidle : m.loop = .idle
    · rw [hidle]
      exact Nat.zero_le _
    · obtain ⟨w, hw, hdone⟩ := h.loop hidle
      rw [← ht, hv] at hw
      cases hw
      exact hdone
  · exact Nat.zero_le _

lemma Containers.takeContainer {fresh : ℕ} (h : m.Containers) (ht : m.currentTick ≤ time)
    (hlt : time < tickRange) (hnone : m.scheduleSet time = none)
    (heq : m.takeContainer time fresh = .ok m') :
    m'.Containers ∧ m'.queue = m.queue ∧ (∃ v, m'.scheduleSet time = some v) ∧
      m'.currentTick = m.currentTick ∧ m'.loop = m.loop ∧ m'.functionPool = m.functionPool ∧
      m'.arguments = m.arguments := by
  obtain ⟨⟨v, pool⟩, hpool, heq⟩ := bind_eq_ok.1 heq
  cases heq
  obtain ⟨hnot, huse⟩ := Pool.inUse_of_take hpool
  obtain ⟨hbank, hmem⟩ := Pool.bank_of_take hpool
  generalize hc : (if m.containerPool.bank = [] then Function.update m.container v []
    else m.container) = container
  have hempty : container v = [] := by
    rw [← hc]
    split
    · exact Function.update_self ..
    · rename_i hne
      exact h.bank_empty v (hmem hne)
  have hkept : ∀ w, w ≠ v → container w = m.container w := by
    intro w hw
    rw [← hc]
    split
    · exact Function.update_of_ne hw ..
    · rfl
  have hset : ∀ u w, Function.update m.scheduleSet time (some v) u = some w →
      u = time ∧ w = v ∨ m.scheduleSet u = some w ∧ w ≠ v := by
    intro u w hu
    by_cases hut : u = time
    · rw [hut, Function.update_self] at hu
      exact .inl ⟨hut, (Option.some.inj hu).symm⟩
    · rw [Function.update_of_ne hut] at hu
      refine .inr ⟨hu, ?_⟩
      rintro rfl
      exact hnot (h.inUse u w hu)
  refine ⟨⟨h.tick_lt, fun u w hu => ?_, fun u w hu => ?_, fun u u' w hu hu' => ?_, fun w hw => ?_,
    fun hidle => ?_⟩, ?_, ⟨v, Function.update_self ..⟩, rfl, rfl, rfl, rfl⟩
  · rcases hset u w hu with ⟨rfl, -⟩ | ⟨hold, -⟩
    · exact ⟨ht, hlt⟩
    · exact h.time u w hold
  · rcases hset u w hu with ⟨-, rfl⟩ | ⟨hold, -⟩
    · exact (huse w).2 (.inl rfl)
    · exact (huse w).2 (.inr (h.inUse u w hold))
  · rcases hset u w hu with ⟨rfl, rfl⟩ | ⟨hold, hne⟩
    · rcases hset u' w hu' with ⟨rfl, -⟩ | ⟨-, hne'⟩
      · rfl
      · exact absurd rfl hne'
    · rcases hset u' w hu' with ⟨-, rfl⟩ | ⟨hold', -⟩
      · exact absurd rfl hne
      · exact h.injective u u' w hold hold'
  · by_cases hwv : w = v
    · rw [hwv]
      exact hempty
    · show container w = []
      rw [hkept w hwv]
      exact h.bank_empty w (hbank hw)
  · obtain ⟨w, hw, hdone⟩ := h.loop hidle
    have hne : w ≠ v := by
      rintro rfl
      exact hnot (h.inUse _ w hw)
    have htick : m.currentTick ≠ time := by
      intro htick
      rw [htick, hnone] at hw
      cases hw
    refine ⟨w, ?_, ?_⟩
    · show Function.update m.scheduleSet time (some v) m.currentTick = some w
      rw [Function.update_of_ne htick]
      exact hw
    · show m.loop.done ≤ (container w).length
      rw [hkept w hne]
      exact hdone
  · funext u
    rw [queue, queue]
    dsimp only
    by_cases hu : u = time
    · rw [hu, Function.update_self, hnone]
      show (container v).drop _ = [].drop _
      rw [hempty]
    · rw [Function.update_of_ne hu]
      rcases hw : m.scheduleSet u with _ | w
      · rfl
      · have hne : w ≠ v := by
          rintro rfl
          exact hnot (h.inUse u w hw)
        show (container w).drop _ = (m.container w).drop _
        rw [hkept w hne]

lemma Containers.requireContainer {fresh : ℕ} (h : m.Containers) (ht : m.currentTick ≤ time)
    (hlt : time < tickRange) (heq : m.requireContainer time fresh = .ok m') :
    m'.Containers ∧ m'.queue = m.queue ∧ (∃ v, m'.scheduleSet time = some v) ∧
      m'.currentTick = m.currentTick ∧ m'.loop = m.loop ∧ m'.functionPool = m.functionPool ∧
      m'.arguments = m.arguments := by
  rw [EventManager.requireContainer] at heq
  split at heq
  · rename_i hnone
    exact h.takeContainer ht hlt hnone heq
  · rename_i hsome
    cases heq
    exact ⟨h, rfl, Option.ne_none_iff_exists'.1 hsome, rfl, rfl, rfl, rfl⟩

/-- A function object is appended to the queue of its tick. -/
lemma Containers.pushBack {v : ℕ} (h : m.Containers) (hv : m.scheduleSet time = some v)
    (hm' : m' = { m with container := Function.update m.container v (m.container v ++ [f]) }) :
    m'.Containers ∧ m'.queue = Function.update m.queue time (m.queue time ++ [f]) := by
  subst hm'
  have hne : ∀ u w, m.scheduleSet u = some w → u ≠ time → w ≠ v := by
    rintro u w hw hu rfl
    exact hu (h.injective u time w hw hv)
  refine ⟨⟨h.tick_lt, h.time, h.inUse, h.injective, fun w hw => ?_, fun hidle => ?_⟩, ?_⟩
  · have hwv : w ≠ v := by
      rintro rfl
      exact (h.inUse time w hv).2 hw
    show Function.update m.container v _ w = []
    rw [Function.update_of_ne hwv]
    exact h.bank_empty w hw
  · obtain ⟨w, hw, hdone⟩ := h.loop hidle
    refine ⟨w, hw, ?_⟩
    show m.loop.done ≤ (Function.update m.container v _ w).length
    by_cases hwv : w = v
    · subst hwv
      rw [Function.update_self, List.length_append]
      omega
    · rw [Function.update_of_ne hwv]
      exact hdone
  · funext u
    by_cases hu : u = time
    · subst hu
      have hdone := h.done_le hv
      rw [Function.update_self, queue_of_some hv, ← List.drop_append_of_le_length hdone, queue,
        show ({ m with container := Function.update m.container v (m.container v ++ [f]) } :
          EventManager γ).scheduleSet u = some v from hv]
      show (Function.update m.container v (m.container v ++ [f]) v).drop _ = _
      rw [Function.update_self]
    · rw [Function.update_of_ne hu, queue, queue]
      dsimp only
      rcases hw : m.scheduleSet u with _ | w
      · rfl
      · show (Function.update m.container v _ w).drop _ = (m.container w).drop _
        rw [Function.update_of_ne (hne u w hw hu)]

/-! ## The steps -/

/-- The containers and the function objects of the queue are as they should be. -/
structure WellFormed (m : EventManager γ) : Prop where
  containers : m.Containers
  held : Held m.FunctionInUse m.queue m.running

lemma WellFormed.new {startTick : TickTime} (h : startTick < tickRange) {reserve maxReserve : ℕ → ℕ} :
    (new (γ := γ) startTick reserve maxReserve).WellFormed where
  containers := by
    refine ⟨h, fun _ _ hv => ?_, fun _ _ hv => ?_, fun _ _ _ hv => ?_, fun _ _ => rfl,
      fun hidle => absurd rfl hidle⟩ <;> cases hv
  held := by
    have hqueue : (EventManager.new (γ := γ) startTick reserve maxReserve).queue = fun _ => [] :=
      funext fun _ => queue_of_none rfl
    rw [hqueue]
    exact .nil

/-- What is still to be run at a tick. -/
def pending (m : EventManager γ) (t : TickTime) : List (Option γ) := (m.queue t).map m.arguments

/-- A callback that is scheduled is the last one that is to be run at its time. -/
lemma WellFormed.schedule {g freshFunction freshContainer : ℕ} (h : m.WellFormed)
    (hlt : time < tickRange)
    (heq : m.schedule g arguments time freshFunction freshContainer = .ok m') :
    m'.WellFormed ∧ m'.currentTick = m.currentTick ∧
      m'.pending = Function.update m.pending time (m.pending time ++ [some arguments]) := by
  obtain ⟨⟨f, m₁⟩, hcreate, heq⟩ := bind_eq_ok.1 heq
  obtain ⟨⟨address, pool⟩, hpool, hcreate⟩ := bind_eq_ok.1 hcreate
  cases hcreate
  obtain ⟨htime, heq⟩ := check_bind_eq_ok.1 heq
  obtain ⟨m₂, hm₂, heq⟩ := bind_eq_ok.1 heq
  obtain ⟨v, hv, heq⟩ := bind_eq_ok.1 heq
  have hpast : m.currentTick ≤ time := htime
  obtain ⟨hnot, hiff⟩ := Pool.inUse_of_take hpool
  generalize hf : (⟨g, address⟩ : StoredFunction) = f at hm₂ heq
  generalize hr : ({ m with functionPool := Function.update m.functionPool g pool } :
    EventManager γ).setArguments f arguments = r at hm₂
  have htick₁ : r.currentTick = m.currentTick := by
    subst hr
    rfl
  have hrcontainers : r.Containers := by
    subst hr
    exact ⟨h.containers.tick_lt, h.containers.time, h.containers.inUse, h.containers.injective,
      h.containers.bank_empty, h.containers.loop⟩
  obtain ⟨hcontainers, hqueue, ⟨w, hw⟩, htick, hloop, hfunctions, harguments⟩ :=
    hrcontainers.requireContainer (htick₁ ▸ hpast) hlt hm₂
  rw [hw] at hv
  cases hv
  obtain ⟨hcontainers', hqueue'⟩ := hcontainers.pushBack hw (f := f) (Except.ok.inj heq).symm
  have hm' : m'.functionPool = r.functionPool ∧ m'.arguments = r.arguments ∧ m'.loop = r.loop ∧
      m'.currentTick = r.currentTick := by
    cases heq
    exact ⟨hfunctions, harguments, hloop, htick⟩
  -- the object that has been taken was not in the queue
  have hfresh : ¬m.FunctionInUse f := by
    rw [← hf]
    exact hnot
  have huse : ∀ x, m'.FunctionInUse x ↔ x = f ∨ m.FunctionInUse x := by
    rintro ⟨generator, a⟩
    rw [FunctionInUse, hm'.1, ← hr, ← hf]
    show (Function.update m.functionPool g pool generator).InUse a ↔ _
    by_cases hgen : generator = g
    · subst hgen
      rw [Function.update_self, hiff, StoredFunction.mk.injEq]
      exact or_congr_left ⟨fun ha => ⟨rfl, ha⟩, fun ha => ha.2⟩
    · rw [Function.update_of_ne hgen, StoredFunction.mk.injEq]
      exact ⟨.inr, fun ha => ha.resolve_left fun ha => hgen ha.1⟩
  have hqueuem : r.queue = m.queue := by
    subst hr
    rfl
  rw [hqueue, hqueuem] at hqueue'
  refine ⟨⟨hcontainers', ?_⟩, ?_, ?_⟩
  · have hrunning : m'.running = m.running := by
      rw [running, hm'.2.2.1, ← hr]
      rfl
    rw [hqueue', hrunning]
    exact h.held.enqueue hfresh huse
  · rw [hm'.2.2.2, ← hr]
    rfl
  · have harg : m'.arguments = Function.update m.arguments f (some arguments) := by
      rw [hm'.2.1, ← hr]
      rfl
    have hold : ∀ u, (m.queue u).map m'.arguments = m.pending u := by
      intro u
      refine List.map_congr_left fun x hx => ?_
      have hxf : x ≠ f := by
        rintro rfl
        exact hfresh (h.held.queued u x hx)
      rw [harg, Function.update_of_ne hxf]
    funext u
    rw [pending, hqueue']
    by_cases hu : u = time
    · rw [hu, Function.update_self, Function.update_self, List.map_append, hold, List.map_singleton,
        harg, Function.update_self]
    · rw [Function.update_of_ne hu, Function.update_of_ne hu, hold]

/-! ### The loop -/

lemma queue_of_idle (h : m.loop = .idle) : m.queue t = (m.scheduleSet t).elim [] m.container := by
  rw [queue, h]
  split <;> rfl

lemma running_of_ne (h : ∀ i f, m.loop ≠ .calling i f) : m.running = none := by
  rw [running]
  split
  · rename_i i f hloop
    exact absurd hloop (h i f)
  · rfl

/-- Nothing is queued for the current tick, and the next one begins. -/
lemma WellFormed.advance (h : m.WellFormed) (hloop : m.loop = .idle)
    (hnone : m.scheduleSet m.currentTick = none) :
    m.advance.WellFormed ∧ m.advance.pending = m.pending := by
  have hqueue : m.advance.queue = m.queue := by
    funext t
    rw [queue_of_idle hloop, queue_of_idle rfl]
    rfl
  have hrunning : m.advance.running = m.running := by
    rw [running_of_ne (m := m) fun i f => by rw [hloop]; exact fun h => nomatch h]
    rfl
  refine ⟨⟨⟨Nat.mod_lt _ (Nat.succ_pos _), fun t v hv => ?_, h.containers.inUse,
    h.containers.injective, h.containers.bank_empty, fun hidle => absurd rfl hidle⟩, ?_⟩, ?_⟩
  · obtain ⟨hle, hlt⟩ := h.containers.time t v hv
    have hne : m.currentTick ≠ t := by
      rintro rfl
      rw [show m.scheduleSet m.currentTick = some v from hv] at hnone
      cases hnone
    exact ⟨Nat.le_trans (Nat.mod_le _ _) (Nat.lt_of_le_of_ne hle hne), hlt⟩
  · rw [hqueue, hrunning]
    exact h.held
  · funext t
    rw [pending, hqueue]
    rfl

/-- The loop of `ProcessTick` begins. -/
lemma WellFormed.beginLoop (h : m.WellFormed) (hloop : m.loop = .idle)
    (hsome : m.scheduleSet m.currentTick ≠ none) :
    WellFormed { m with loop := .next 0 } ∧
      pending { m with loop := .next 0 } = m.pending := by
  have hqueue : queue { m with loop := .next 0 } = m.queue := by
    funext t
    rw [queue_of_idle hloop, queue]
    dsimp only [Loop.done]
    rw [ite_self]
    rfl
  obtain ⟨v, hv⟩ := Option.ne_none_iff_exists'.1 hsome
  refine ⟨⟨⟨h.containers.tick_lt, h.containers.time, h.containers.inUse, h.containers.injective,
    h.containers.bank_empty, fun _ => ⟨v, hv, Nat.zero_le _⟩⟩, ?_⟩, ?_⟩
  · have hrunning : m.running = none :=
      running_of_ne fun i f => by rw [hloop]; exact fun h => nomatch h
    have hheld := h.held
    rw [hrunning] at hheld
    rw [hqueue]
    exact hheld
  · funext t
    rw [pending, hqueue]
    rfl

/-- The first callback that is to be run is run. -/
lemma WellFormed.call {i v : ℕ} (h : m.WellFormed) (hloop : m.loop = .next i)
    (hv : m.scheduleSet m.currentTick = some v) (hf : (m.container v)[i]? = some f)
    (heq : m.call i f = .ok (arguments, m')) :
    m'.WellFormed ∧ m'.currentTick = m.currentTick ∧
      ∃ rest, m.pending m.currentTick = some arguments :: rest ∧
        m'.pending = Function.update m.pending m.currentTick rest := by
  obtain ⟨a, ha, heq⟩ := bind_eq_ok.1 heq
  have harguments : m.arguments f = some arguments ∧ m' = { m with loop := .calling i f } := by
    rcases hb : m.arguments f with _ | b
    · rw [hb] at ha
      cases ha
    · rw [hb] at ha
      cases ha
      cases heq
      exact ⟨rfl, rfl⟩
  obtain ⟨hlt, hget⟩ := List.getElem?_eq_some_iff.1 hf
  have hqueue : m.queue m.currentTick = f :: (m.container v).drop (i + 1) := by
    rw [queue_of_some hv, if_pos rfl, hloop, Loop.done, List.drop_eq_getElem_cons hlt, hget]
  have hqueue' : m'.queue = Function.update m.queue m.currentTick ((m.container v).drop (i + 1)) := by
    rw [harguments.2]
    funext t
    by_cases ht : t = m.currentTick
    · subst ht
      rw [Function.update_self, queue, if_pos rfl]
      dsimp only [Loop.done]
      rw [hv]
      rfl
    · rw [Function.update_of_ne ht, queue, queue, if_neg ht, if_neg ht]
  refine ⟨⟨?_, ?_⟩, ?_, (m.pending m.currentTick).tail, ?_, ?_⟩
  · rw [harguments.2]
    exact ⟨h.containers.tick_lt, h.containers.time, h.containers.inUse, h.containers.injective,
      h.containers.bank_empty, fun _ => ⟨v, hv, hlt⟩⟩
  · have hheld := h.held.dequeue hqueue
    rw [← hqueue'] at hheld
    rw [harguments.2] at hheld ⊢
    exact hheld
  · rw [harguments.2]
  · rw [pending, hqueue, List.map_cons, harguments.1]
    rfl
  · funext t
    have hargs : m'.arguments = m.arguments := by rw [harguments.2]
    rw [pending, hqueue', hargs]
    by_cases ht : t = m.currentTick
    · subst ht
      rw [Function.update_self, Function.update_self, pending, hqueue]
      rfl
    · rw [Function.update_of_ne ht, Function.update_of_ne ht, pending]

/-- The function object returns itself to its pool. -/
lemma WellFormed.returnFrom {i : ℕ} (h : m.WellFormed) (hloop : m.loop = .calling i f) :
    ∃ m', m.returnFrom i f = .ok m' ∧ m'.WellFormed ∧ m'.currentTick = m.currentTick ∧
      m'.pending = m.pending := by
  have hrunning : m.running = some f := by
    rw [running, hloop]
  have hheld := h.held
  rw [hrunning] at hheld
  obtain ⟨pool, hpool, hiff⟩ := Pool.exists_give (f := Fault.assertion) (hheld.running f rfl).1
  refine ⟨_, by rw [EventManager.returnFrom, hpool]; rfl, ?_⟩
  generalize hm' : ({ m with
    functionPool := Function.update m.functionPool f.generator pool
    loop := .next (i + 1) } : EventManager γ) = m'
  have hqueue : m'.queue = m.queue := by
    subst hm'
    funext t
    rw [queue, queue, hloop]
    rfl
  refine ⟨⟨?_, ?_⟩, ?_, ?_⟩
  · obtain ⟨v, hv, hdone⟩ := h.containers.loop (by rw [hloop]; exact fun h => nomatch h)
    rw [hloop] at hdone
    subst hm'
    exact ⟨h.containers.tick_lt, h.containers.time, h.containers.inUse, h.containers.injective,
      h.containers.bank_empty, fun _ => ⟨v, hv, hdone⟩⟩
  · have hrunning' : m'.running = none := by
      subst hm'
      rfl
    rw [hqueue, hrunning']
    refine hheld.release ?_
    rintro ⟨generator, a⟩
    subst hm'
    show (Function.update m.functionPool f.generator pool generator).InUse a ↔ _
    by_cases hgen : generator = f.generator
    · subst hgen
      rw [Function.update_self, hiff]
      refine and_congr_left fun _ => not_congr ⟨?_, ?_⟩
      · rintro rfl
        rfl
      · rintro hfeq
        exact congrArg StoredFunction.address hfeq
    · rw [Function.update_of_ne hgen]
      refine ⟨fun ha => ⟨?_, ha⟩, fun ha => ha.2⟩
      rintro rfl
      exact hgen rfl
  · subst hm'
    rfl
  · funext t
    rw [pending, hqueue]
    subst hm'
    rfl

/-- The container of the current tick returns to its pool when all its function objects have
been called. -/
lemma WellFormed.finish {i v : ℕ} (h : m.WellFormed) (hloop : m.loop = .next i)
    (hv : m.scheduleSet m.currentTick = some v) (hend : (m.container v)[i]? = none) :
    ∃ m', m.finish v = .ok m' ∧ m'.WellFormed ∧ m'.loop = .idle ∧ m'.pending = m.pending := by
  obtain ⟨pool, hpool, hiff⟩ := Pool.exists_give (f := Fault.assertion) (h.containers.inUse _ v hv)
  have hbank := Pool.bank_of_give hpool
  generalize hn : ({ m with
    container := Function.update m.container v []
    containerPool := pool
    scheduleSet := Function.update m.scheduleSet m.currentTick none
    loop := .idle } : EventManager γ) = n
  have hset : ∀ t w, n.scheduleSet t = some w → m.scheduleSet t = some w ∧ t ≠ m.currentTick ∧
      w ≠ v := by
    intro t w hw
    subst hn
    have hw' : Function.update m.scheduleSet m.currentTick none t = some w := hw
    have ht : t ≠ m.currentTick := by
      rintro rfl
      rw [Function.update_self] at hw'
      cases hw'
    rw [Function.update_of_ne ht] at hw'
    refine ⟨hw', ht, ?_⟩
    rintro rfl
    exact ht (h.containers.injective t _ w hw' hv)
  have hqueue : n.queue = m.queue := by
    funext t
    have hidle : n.loop = .idle := by rw [← hn]
    rw [queue_of_idle hidle]
    by_cases ht : t = m.currentTick
    · have hlen : (m.container v).length ≤ i := List.getElem?_eq_none_iff.1 hend
      have hnone : n.scheduleSet t = none := by
        rw [← hn, ht]
        exact Function.update_self ..
      rw [hnone, ht, queue_of_some hv, if_pos rfl, hloop, Loop.done, List.drop_eq_nil_of_le hlen]
      rfl
    · have hkept : n.scheduleSet t = m.scheduleSet t := by
        rw [← hn]
        exact Function.update_of_ne ht ..
      rw [hkept, queue, if_neg ht, List.drop_zero]
      rcases hw : m.scheduleSet t with _ | w
      · rfl
      · have hwv := (hset t w (hkept.trans hw)).2.2
        rw [← hn]
        exact Function.update_of_ne hwv ..
  have hnwf : n.WellFormed := by
    refine ⟨⟨?_, fun t w hw => ?_, fun t w hw => ?_, fun t t' w hw hw' => ?_, fun w hw => ?_,
      fun hidle => ?_⟩, ?_⟩
    · rw [← hn]
      exact h.containers.tick_lt
    · have hold := h.containers.time t w (hset t w hw).1
      rw [← hn]
      exact hold
    · obtain ⟨hold, -, hwv⟩ := hset t w hw
      have huse := (hiff w).2 ⟨hwv, h.containers.inUse t w hold⟩
      rw [← hn]
      exact huse
    · exact h.containers.injective t t' w (hset t w hw).1 (hset t' w hw').1
    · subst hn
      show Function.update m.container v [] w = []
      by_cases hwv : w = v
      · rw [hwv, Function.update_self]
      · rw [Function.update_of_ne hwv]
        exact h.containers.bank_empty w ((List.mem_cons.1 (hbank hw)).resolve_left hwv)
    · rw [← hn] at hidle
      exact absurd rfl hidle
    · have hheld := h.held
      rw [running_of_ne (m := m) fun i f => by rw [hloop]; exact fun h => nomatch h] at hheld
      rw [hqueue]
      subst hn
      exact hheld
  have hnone : n.scheduleSet n.currentTick = none := by
    rw [← hn]
    exact Function.update_self ..
  obtain ⟨hwf, hpending⟩ := hnwf.advance (by rw [← hn]) hnone
  refine ⟨n.advance, ?_, hwf, rfl, hpending.trans ?_⟩
  · rw [EventManager.finish, hpool, ← hn]
    rfl
  · funext t
    rw [pending, hqueue, ← hn]
    rfl

end EventManager

/-! ## Runs -/

namespace System

variable {γ : Type} {s s' : System γ} {t : TickTime}

/-- The callbacks in a log for a tick, in order. -/
def logAt (log : List (TickTime × γ)) (t : TickTime) : List γ :=
  (log.filter fun e => e.1 = t).map Prod.snd

/-- The callbacks that have been scheduled for a tick, in the order in which they have been. -/
def scheduledAt (s : System γ) (t : TickTime) : List γ := logAt s.scheduled t

/-- The callbacks that have been run at a tick, in the order in which they have been. -/
def executedAt (s : System γ) (t : TickTime) : List γ := logAt s.executed t

lemma logAt_append {log : List (TickTime × γ)} {time : TickTime} {a : γ} :
    logAt (log ++ [(time, a)]) t = if t = time then logAt log t ++ [a] else logAt log t := by
  rw [logAt, List.filter_append, List.map_append]
  split
  · rename_i ht
    rw [List.filter_singleton, decide_eq_true (show (time, a).1 = t from ht.symm)]
    rfl
  · rename_i ht
    rw [List.filter_singleton, decide_eq_false (show ¬(time, a).1 = t from Ne.symm ht)]
    exact List.append_nil _

/-- What has been scheduled for a tick is what has been run at it and what is still to be run. -/
structure Inv (s : System γ) : Prop where
  wellFormed : s.manager.WellFormed
  log : ∀ t, (s.scheduledAt t).map some = (s.executedAt t).map some ++ s.manager.pending t

lemma Inv.schedule {g : ℕ} {arguments : γ} {request : EventManager.Request}
    {freshFunction freshContainer : ℕ} (hs : s.Inv)
    (h : s.schedule g arguments request freshFunction freshContainer = .ok s') : s'.Inv := by
  obtain ⟨hlt, h⟩ := check_bind_eq_ok.1 h
  obtain ⟨m, hm, h⟩ := bind_eq_ok.1 h
  cases h
  obtain ⟨hwf, -, hpending⟩ := hs.wellFormed.schedule hlt hm
  refine ⟨hwf, fun t => ?_⟩
  have hlog := hs.log t
  rw [scheduledAt, logAt_append, hpending]
  by_cases ht : t = s.manager.timeOf request
  · rw [if_pos ht, ← ht, Function.update_self, List.map_append, ← List.append_assoc]
    exact congrArg (· ++ [some arguments]) hlog
  · rw [if_neg ht, Function.update_of_ne ht]
    exact hlog

/-- A step of `ProcessTick` that runs no callback. -/
lemma Inv.silent {m : EventManager γ} (hs : s.Inv) (hm : m.WellFormed)
    (hpending : m.pending = s.manager.pending) : Inv { s with manager := m } where
  wellFormed := hm
  log t := by
    rw [hpending]
    exact hs.log t

lemma Inv.processTick {m : EventManager γ} (hs : s.Inv) (h : s.manager.processTick = .ok m) :
    Inv { s with manager := m } := by
  obtain ⟨hloop, h⟩ := check_bind_eq_ok.1 h
  cases h
  split
  · rename_i hsome
    obtain ⟨hwf, hpending⟩ := hs.wellFormed.beginLoop hloop hsome
    exact hs.silent hwf hpending
  · rename_i hnone
    obtain ⟨hwf, hpending⟩ := hs.wellFormed.advance hloop (not_not.1 hnone)
    exact hs.silent hwf hpending

/-- The loop of `ProcessTick` can go on, and keeps the invariant. -/
lemma Inv.callNext {i : ℕ} (hs : s.Inv) (hloop : s.manager.loop = .next i) :
    ∃ s', s.callNext i = .ok s' ∧ s'.Inv := by
  obtain ⟨v, hv, -⟩ := hs.wellFormed.containers.loop (by rw [hloop]; exact fun h => nomatch h)
  have hcallNext : s.callNext i = s.callIn v i := by
    rw [System.callNext, hv]
    rfl
  rw [hcallNext, System.callIn]
  rcases hf : (s.manager.container v)[i]? with _ | f
  · obtain ⟨m, hm, hwf, -, hpending⟩ := hs.wellFormed.finish hloop hv hf
    refine ⟨{ s with manager := m }, ?_, hs.silent hwf hpending⟩
    dsimp only
    rw [hm]
    rfl
  · -- the arguments of what is queued have been scheduled
    obtain ⟨a, ha⟩ : ∃ a, s.manager.arguments f = some a := by
      obtain ⟨hlt, hget⟩ := List.getElem?_eq_some_iff.1 hf
      have hqueue : f ∈ s.manager.queue s.manager.currentTick := by
        rw [EventManager.queue_of_some hv, if_pos rfl, hloop, Loop.done,
          List.drop_eq_getElem_cons hlt, hget]
        exact .head _
      have hmem : s.manager.arguments f ∈ (s.scheduledAt s.manager.currentTick).map some := by
        rw [hs.log]
        exact List.mem_append_right _ (List.mem_map_of_mem hqueue)
      obtain ⟨a, -, ha⟩ := List.mem_map.1 hmem
      exact ⟨a, ha.symm⟩
    have hcall : s.manager.call i f = .ok (a, { s.manager with loop := .calling i f }) := by
      rw [EventManager.call, ha]
      rfl
    obtain ⟨hwf, -, rest, hrest, hpending⟩ := hs.wellFormed.call hloop hv hf hcall
    dsimp only
    rw [hcall]
    refine ⟨_, rfl, hwf, fun t => ?_⟩
    have hlog := hs.log t
    rw [executedAt, logAt_append, hpending]
    by_cases ht : t = s.manager.currentTick
    · subst ht
      rw [if_pos rfl, Function.update_self, List.map_append, List.append_assoc]
      rw [hrest] at hlog
      exact hlog
    · rw [if_neg ht, Function.update_of_ne ht]
      exact hlog

lemma Inv.resume (hs : s.Inv) (hloop : s.manager.loop ≠ .idle) :
    ∃ s', s.resume = .ok s' ∧ s'.Inv := by
  rw [System.resume]
  rcases hl : s.manager.loop with _ | i | ⟨i, f⟩
  · exact absurd hl hloop
  · exact hs.callNext hl
  · obtain ⟨m, hm, hwf, -, hpending⟩ := hs.wellFormed.returnFrom hl
    refine ⟨{ s with manager := m }, ?_, hs.silent hwf hpending⟩
    show s.manager.returnFrom i f >>= _ = _
    rw [hm]
    rfl

/-- What has been run at a tick is the beginning of what has been scheduled for it. -/
lemma Inv.isPrefix (hs : s.Inv) (t : TickTime) : s.executedAt t <+: s.scheduledAt t := by
  obtain ⟨l, rest, hl, hmap, -⟩ := List.map_eq_append_iff.1 (hs.log t)
  have hl' : l = s.executedAt t := List.map_injective_iff.2 (Option.some_injective γ) hmap
  exact ⟨rest, by rw [hl, hl']⟩

/-- Nothing is left for a tick in the past. -/
lemma Inv.executedAt_of_lt (hs : s.Inv) (ht : t < s.manager.currentTick) :
    s.executedAt t = s.scheduledAt t := by
  have hlog := hs.log t
  have hpending : s.manager.pending t = [] := by
    rw [EventManager.pending, hs.wellFormed.containers.queue_of_lt ht]
    rfl
  rw [hpending, List.append_nil] at hlog
  exact (List.map_injective_iff.2 (Option.some_injective γ) hlog).symm

lemma count_map_fst (log : List (TickTime × γ)) :
    (log.map Prod.fst).count t = (logAt log t).length := by
  rw [List.count, List.countP_map, logAt, List.length_map, List.countP_eq_length_filter]
  rfl

/-- There are no more calls than callbacks have been scheduled. -/
lemma Inv.length_le (hs : s.Inv) : s.executed.length ≤ s.scheduled.length := by
  have hsub : (s.executed.map Prod.fst).Subperm (s.scheduled.map Prod.fst) := by
    refine List.subperm_ext_iff.2 fun t _ => ?_
    rw [count_map_fst, count_map_fst]
    exact (hs.isPrefix t).length_le
  have hlength := hsub.length_le
  rw [List.length_map, List.length_map] at hlength
  exact hlength

lemma Inv.of_resume (hs : s.Inv) (h : s.resume = .ok s') : s'.Inv := by
  have hloop : s.manager.loop ≠ .idle := by
    intro hidle
    rw [System.resume, hidle] at h
    cases h
  obtain ⟨t, ht, hinv⟩ := hs.resume hloop
  cases ht.symm.trans h
  exact hinv

variable {startTick : TickTime} {reserve maxReserve : ℕ → ℕ}

lemma Inv.new (hstart : startTick < tickRange) :
    (machine (γ := γ) startTick reserve maxReserve).init.Inv := by
  refine ⟨.new hstart, fun t => ?_⟩
  rw [EventManager.pending, EventManager.queue_of_none rfl]
  rfl

theorem Inv.of_reachable (hstart : startTick < tickRange)
    (h : (machine (γ := γ) startTick reserve maxReserve).Reachable s) : s.Inv := by
  refine h.invariant (Inv.new hstart) fun s e s' hs hstep => ?_
  cases e with
  | schedule => exact hs.schedule hstep
  | processTick =>
    obtain ⟨m, hm, hstep⟩ := bind_eq_ok.1 hstep
    cases hstep
    exact hs.processTick hm
  | resume => exact hs.of_resume hstep

/-- Every callback runs exactly once, at the tick for which it has been scheduled and in order:
what has been run at a tick is the beginning of what has been scheduled for it, all of it when
the tick is over; and `ProcessTick` never stops on the way, with no more calls than there are
scheduled callbacks. -/
theorem events_run_once (hstart : startTick < tickRange)
    (h : (machine (γ := γ) startTick reserve maxReserve).Reachable s) :
    (∀ t, s.executedAt t <+: s.scheduledAt t) ∧
    (∀ t < s.manager.currentTick, s.executedAt t = s.scheduledAt t) ∧
    (s.manager.loop = .idle → ∃ m, s.manager.processTick = .ok m) ∧
    (s.manager.loop ≠ .idle → ∃ s', s.resume = .ok s') ∧
    s.executed.length ≤ s.scheduled.length := by
  have hs := Inv.of_reachable hstart h
  refine ⟨hs.isPrefix, fun t ht => hs.executedAt_of_lt ht, fun hloop => ?_, fun hloop => ?_,
    hs.length_le⟩
  · exact ⟨_, check_bind_eq_ok.2 ⟨hloop, rfl⟩⟩
  · obtain ⟨s', hs', -⟩ := hs.resume hloop
    exact ⟨s', hs'⟩

/-- A callback schedules another one for the tick at which it runs, and one of the next tick gets
the function object of the first. -/
def reentrantRun : List (Event ℕ) :=
  [.schedule 0 7 (.after 0) 0 0, .processTick, .resume, .schedule 0 8 (.after 0) 1 0, .resume,
    .schedule 0 9 (.at 1) 2 1, .resume, .resume, .resume, .processTick, .resume]

theorem events_run_once_reentrantRun :
    ∃ s, (machine 0 (fun _ => 0) (fun _ => 10000)).Run reentrantRun s ∧
      s.manager.currentTick = 1 ∧ s.scheduledAt 0 = [7, 8] ∧ s.executedAt 0 = [7, 8] ∧
      s.executed.length ≤ s.scheduled.length ∧ s.manager.loop = .calling 0 ⟨0, 0⟩ ∧
      ∃ s', s.resume = .ok s' := by
  have hrun : succeeds ((machine 0 (fun _ => 0) (fun _ => 10000)).exec
      (machine 0 (fun _ => 0) (fun _ => 10000)).init reentrantRun) (fun s =>
        decide (s.manager.currentTick = 1 ∧ s.scheduledAt 0 = [7, 8] ∧
          s.manager.loop = .calling 0 ⟨0, 0⟩)) = true := by
    decide +kernel
  obtain ⟨s, hs, htest⟩ := succeeds_iff.1 hrun
  obtain ⟨htick, hscheduled, hloop⟩ := of_decide_eq_true htest
  obtain ⟨-, hpast, -, hresume, hlength⟩ :=
    events_run_once (by decide) ⟨reentrantRun, Machine.run_of_exec hs⟩
  have hexecuted := hpast 0 (by rw [htick]; exact Nat.one_pos)
  exact ⟨s, Machine.run_of_exec hs, htick, hscheduled, hexecuted.trans hscheduled, hlength, hloop,
    hresume (by rw [hloop]; exact fun h => nomatch h)⟩

end System

end Sesc.Events
