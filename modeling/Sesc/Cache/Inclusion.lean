import Sesc.Cache.Hierarchy

/-!
# Inclusion

What the top cache of a hierarchy holds the lower one has in a block or among its pending
evictions.  The lower cache gives a line up when it handles a message, not when the top cache
has done so; inclusion holds as long as the top cache has lost the line by then and no answer
that grants it is on the way up.
-/

namespace Sesc.Cache

open Lib Relation

/-! ## Moves of the two caches -/

/-- The tag has a block or its eviction is pending. -/
def Lines.Accounted (l : Lines) (tag : AddrTag) : Prop :=
  l.block tag ≠ none ∨ l.pending tag ≠ none

/-- The messages that grant a line to the level above. -/
def Lines.Granted (l : Lines) (m : ReadResponseMsg) : Prop :=
  ∃ delay, ⟨.localConnection, .readResponse m, delay⟩ ∈ l.sent

namespace CacheConfig

variable {cfg : CacheConfig} {allow : Allowance} {l l' : Lines} {tag : AddrTag}

/-- A lower cache accounts for a tag until it gives it up. -/
lemma Move.accounted (h : cfg.Move allow l l') (hlower : cfg.topCache = false)
    (hl : l.Accounted tag) : l'.Accounted tag ∨ allow.giveUp tag := by
  cases h with
  | send s hplain hname => exact .inl hl
  | grant m delay hgrant hb hstate hexclusive => exact .inl hl
  | refuse m res delay hanswer haddr hunsatisfied => exact .inl hl
  | evict u m delay htop hb haddr =>
    rw [hlower] at htop
    cases htop
  | release u m delay hgive hb haddr => grind [Lines.Accounted]
  | yield m res delay b' hanswer hexclusive haddr hres hb hstate hgive hinvalid =>
    grind [Lines.Accounted]
  | invalidate u res delay b' haddr hb hinvalid => grind [Lines.Accounted]
  | _ => grind [Lines.Accounted]

/-- A cache that answers the level above accounts for the line. -/
lemma Move.granted (h : cfg.Move allow l l') {m : ReadResponseMsg} (hm : l'.Granted m) :
    l.Granted m ∨ allow.grant ∧ l.block (cfg.calcTag m.addr) ≠ none := by
  cases h with
  | send s hplain hname => grind [Lines.Granted, Sent.isPlain]
  | grant m' delay hgrant hb hstate hexclusive => grind [Lines.Granted]
  | _ => grind [Lines.Granted]

/-- A top cache has no pending eviction, and holds no more than before unless it takes a
line. -/
lemma Move.holds (h : cfg.Move allow l l') (htop : cfg.topCache = true)
    (hpending : ∀ u, l.pending u = none) :
    (∀ u, l'.pending u = none) ∧
      ∀ tag, l'.Holds tag → l.Holds tag ∨ ∃ s, allow.take tag s := by
  cases h with
  | _ => grind [Lines.Holds]

/-- What the moves of a lower cache give up, its message allows it to give up. -/
lemma accounted_of_moves (h : ReflTransGen (cfg.Move allow) l l') (hlower : cfg.topCache = false)
    (hl : l.Accounted tag) : l'.Accounted tag ∨ allow.giveUp tag := by
  induction h with
  | refl => exact .inl hl
  | tail _ hmove ih =>
    rcases ih with hacc | hgive
    · exact hmove.accounted hlower hacc
    · exact .inr hgive

/-- A line that a lower cache has granted it accounts for, unless it has given it up since. -/
lemma granted_of_moves (h : ReflTransGen (cfg.Move allow) l l') (hlower : cfg.topCache = false)
    {m : ReadResponseMsg} (hm : l'.Granted m) : l.Granted m ∨ allow.grant ∧
      (l'.Accounted (cfg.calcTag m.addr) ∨ allow.giveUp (cfg.calcTag m.addr)) := by
  induction h with
  | refl => exact .inl hm
  | tail _ hmove ih =>
    rcases hmove.granted hm with hold | ⟨hgrant, hblock⟩
    · rcases ih hold with hold | ⟨hgrant, hacc | hgive⟩
      · exact .inl hold
      · exact .inr ⟨hgrant, hmove.accounted hlower hacc⟩
      · exact .inr ⟨hgrant, .inr hgive⟩
    · exact .inr ⟨hgrant, hmove.accounted hlower (.inl hblock)⟩

/-- A top cache holds what it held and what its message lets it take. -/
lemma holds_of_moves (h : ReflTransGen (cfg.Move allow) l l') (htop : cfg.topCache = true)
    (hpending : ∀ u, l.pending u = none) : (∀ u, l'.pending u = none) ∧
      ∀ tag, l'.Holds tag → l.Holds tag ∨ ∃ s, allow.take tag s := by
  induction h with
  | refl => exact ⟨hpending, fun _ => .inl⟩
  | tail _ hmove ih =>
    obtain ⟨hnone, hholds⟩ := hmove.holds htop ih.1
    refine ⟨hnone, fun tag h => ?_⟩
    rcases hholds tag h with hold | htake
    · exact ih.2 tag hold
    · exact .inr htake

/-- No message lets a cache both answer the level above and give up a line. -/
lemma not_giveUp_of_grant {c : BIPMOESICache} {port : Port} {msg : Msg}
    (h : (cfg.allowance c port msg).grant) : ¬(cfg.allowance c port msg).giveUp tag := by
  intro hgive
  cases port <;> cases msg <;> first | exact h.elim | exact hgive.elim

end CacheConfig

/-! ## The two caches -/

namespace HierarchyConfig

variable (cfg : HierarchyConfig)

/-- The top cache holds the tag in a valid state. -/
def TopHolds (s : Hierarchy) (tag : AddrTag) : Prop :=
  ∃ b, (cfg.cache .l1).block (s.cache .l1) tag = some b ∧ b.state ≠ .invalid

/-- An answer that grants the tag is on its way to the top cache. -/
def GrantInFlight (s : Hierarchy) (tag : AddrTag) : Prop :=
  ∃ t ∈ s.flight, t.dest = .l1 ∧ ∃ m, t.msg = .readResponse m ∧
    (cfg.cache .l1).calcTag m.addr = tag

/-- The lower cache may give up only tags that the top cache does not hold and is not about to
hold. -/
def GivesUpLost (s : Hierarchy) (port : Port) (msg : Msg) : Prop :=
  ∀ tag, ((cfg.cache .l2).allowance (s.cache .l2) port msg).giveUp tag →
    ¬cfg.TopHolds s tag ∧ ¬cfg.GrantInFlight s tag

/-- The condition on a step of the hierarchy: on the message that the lower cache handles, if
it is the lower cache that handles one. -/
def GivesUpLostAt (s : Hierarchy) : HierarchyEvent → Prop
  | .processor _ _ => True
  | .remote msg _ => cfg.GivesUpLost s .remoteConnection msg
  | .deliver k _ => ∀ t ∈ s.flight[k]?, t.dest = .l2 → cfg.GivesUpLost s .localConnection t.msg
  | .processTick => True

/-- What holds in every state of the runs that meet the condition. -/
structure InclusionInv (s : Hierarchy) : Prop where
  wellFormed : ∀ level, (cfg.cache level).WellFormed (s.cache level)
  pending : ∀ tag, (s.cache .l1).pendingEviction tag = none
  included : ∀ tag, cfg.TopHolds s tag ∨ cfg.GrantInFlight s tag →
    (cfg.cache .l2).block (s.cache .l2) tag ≠ none ∨ (s.cache .l2).pendingEviction tag ≠ none

variable {cfg} {s s' : Hierarchy} {e : HierarchyEvent} {flight : List Transit} {a : Activation}
  {port : Port} {msg : Msg} {rands : List ℕ} {tag : AddrTag}

variable (cfg) in
lemma calcTag_eq (addr : Address) :
    (cfg.cache .l1).calcTag addr = (cfg.cache .l2).calcTag addr := by
  rw [CacheConfig.calcTag, CacheConfig.calcTag, cfg.lineSize]

/-- What a handler of a cache does to its cache. -/
lemma moves_of_recvMsg {level : Level}
    (hwf : (cfg.cache level).WellFormed (s.cache level))
    (h : (cfg.cache level).recvMsg port msg (activation s level rands) = .ok a) :
    (cfg.cache level).WellFormed a.cache ∧
      ReflTransGen ((cfg.cache level).Move ((cfg.cache level).allowance (s.cache level) port msg))
        ((cfg.cache level).lines (activation s level rands)) ((cfg.cache level).lines a) :=
  CacheConfig.moves_recvMsg port msg a h hwf

/-- The messages in flight to the top cache after a handler. -/
lemma grantInFlight_commit {level : Level} (hflight : ∀ t ∈ flight, t ∈ s.flight)
    (h : cfg.GrantInFlight (cfg.commit s level flight a) tag) : cfg.GrantInFlight s tag ∨
      level = .l2 ∧ ∃ m, ((cfg.cache .l2).lines a).Granted m ∧ (cfg.cache .l2).calcTag m.addr = tag := by
  obtain ⟨t, ht, hdest, m, hm, htag⟩ := h
  rcases List.mem_append.1 ht with hold | hnew
  · exact .inl ⟨t, hflight t hold, hdest, m, hm, htag⟩
  · obtain ⟨x, hx, hxt⟩ := List.mem_filterMap.1 hnew
    obtain ⟨dest, hd, rfl⟩ := Option.map_eq_some_iff.1 hxt
    rcases x with ⟨port, y, delay⟩
    dsimp only at hdest hm hd
    subst hdest hm
    cases level <;> cases port <;> cases hd
    exact .inr ⟨rfl, m, ⟨delay, hx⟩, (cfg.calcTag_eq m.addr) ▸ htag⟩

/-- The top cache handles a message. -/
lemma InclusionInv.top (hs : cfg.InclusionInv s)
    (h : (cfg.cache .l1).recvMsg port msg (activation s .l1 rands) = .ok a)
    (hflight : ∀ t ∈ flight, t ∈ s.flight)
    (hmsg : ∀ m, port = .remoteConnection → msg = .readResponse m →
      cfg.GrantInFlight s ((cfg.cache .l1).calcTag m.addr)) :
    cfg.InclusionInv (cfg.commit s .l1 flight a) := by
  obtain ⟨hwf, hmoves⟩ := moves_of_recvMsg (hs.wellFormed .l1) h
  obtain ⟨hnone, hafter⟩ := CacheConfig.holds_of_moves hmoves cfg.top hs.pending
  refine ⟨?_, hnone, fun tag htag => hs.included tag ?_⟩
  · intro level
    cases level
    · exact hwf
    · exact hs.wellFormed .l2
  · rcases htag with hholds | hgrant
    · rcases hafter tag hholds with hold | ⟨state, htake⟩
      · exact .inl hold
      · -- the answer that is taken was in flight
        cases port <;> cases msg <;> try exact htake.elim
        rename_i m
        rw [htake.1]
        exact .inr (hmsg m rfl rfl)
    · rcases grantInFlight_commit hflight hgrant with hold | ⟨hlevel, -⟩
      · exact .inr hold
      · cases hlevel

/-- The lower cache handles a message. -/
lemma InclusionInv.lower (hs : cfg.InclusionInv s)
    (h : (cfg.cache .l2).recvMsg port msg (activation s .l2 rands) = .ok a)
    (hflight : ∀ t ∈ flight, t ∈ s.flight) (hlost : cfg.GivesUpLost s port msg) :
    cfg.InclusionInv (cfg.commit s .l2 flight a) := by
  obtain ⟨hwf, hmoves⟩ := moves_of_recvMsg (hs.wellFormed .l2) h
  refine ⟨?_, hs.pending, ?_⟩
  · intro level
    cases level
    · exact hs.wellFormed .l1
    · exact hwf
  · -- a tag that counted before counts unless the lower cache gives it up
    have hkept : ∀ tag, cfg.TopHolds s tag ∨ cfg.GrantInFlight s tag →
        ((cfg.cache .l2).lines a).Accounted tag := by
      intro tag htag
      rcases CacheConfig.accounted_of_moves hmoves cfg.lower (hs.included tag htag) with
        hacc | hgive
      · exact hacc
      · obtain ⟨hholds, hgrant⟩ := hlost tag hgive
        exact (htag.elim hholds hgrant).elim
    intro tag htag
    rcases htag with hholds | hgrant
    · exact hkept tag (.inl hholds)
    · rcases grantInFlight_commit hflight hgrant with hold | ⟨-, m, hm, rfl⟩
      · exact hkept tag (.inr hold)
      · rcases CacheConfig.granted_of_moves hmoves cfg.lower hm with ⟨delay, hd⟩ | ⟨hg, hacc⟩
        · cases hd
        · exact hacc.resolve_right (CacheConfig.not_giveUp_of_grant hg)

lemma InclusionInv.new : cfg.InclusionInv .new where
  wellFormed _ := .new
  pending _ := rfl
  included tag h := by
    rcases h with ⟨b, hb, -⟩ | ⟨t, ht, -⟩
    · cases hb.symm.trans (CacheConfig.block_of_lookup_none (CacheConfig.lookup_new tag))
    · cases ht

/-- One step. -/
lemma InclusionInv.step (hs : cfg.InclusionInv s) (hlost : cfg.GivesUpLostAt s e)
    (h : cfg.step s e = .ok s') : cfg.InclusionInv s' := by
  obtain ⟨-, rfl⟩ | ⟨level, port, msg, rands, flight, a, ha, rfl, hevent⟩ := step_eq_ok h
  · exact ⟨hs.wellFormed, hs.pending, hs.included⟩
  · rcases hevent with ⟨rfl, rfl, rfl, -, rfl⟩ | ⟨rfl, rfl, rfl, -, rfl⟩ |
      ⟨k, t, rfl, hk, rfl, rfl, rfl, rfl⟩
    · exact hs.top ha (fun _ ht => ht) fun m hport => nomatch hport
    · exact hs.lower ha (fun _ ht => ht) hlost
    · have hmem : ∀ u ∈ s.flight.eraseIdx k, u ∈ s.flight := fun u => List.mem_of_mem_eraseIdx
      have ht : t ∈ s.flight := List.mem_of_getElem? hk
      rcases hdest : t.dest with _ | _
      · rw [hdest] at ha
        exact hs.top ha hmem fun m _ hm => ⟨t, ht, hdest, m, hm, rfl⟩
      · rw [hdest] at ha
        exact hs.lower ha hmem (hlost t hk hdest)

end HierarchyConfig

/-! ## An invalidation that meets an eviction -/

/-- A cache with sets of one block. -/
def CacheConfig.directMapped (setCount : ℕ) (topCache : Bool) : CacheConfig where
  kind := .bipMOESI
  hitTime := 1
  missTime := 1
  evictionTime := 1
  invalidateTime := 1
  satisfyRequestTime := 1
  evictionPolicy := .lru
  associativity := 1
  setCount := setCount
  lineSize := 64
  topCache := topCache

/-- A lower cache with one block under a top cache with the given number of blocks. -/
def HierarchyConfig.oneBlock (setCount : ℕ) : HierarchyConfig where
  cache
    | .l1 => .directMapped setCount true
    | .l2 => .directMapped 1 false
  latency := 1
  top := rfl
  lower := rfl
  lineSize := rfl

def processorRead (addr : Address) : HierarchyEvent :=
  .processor
    (.read
      { msgID := 0, addr := addr, requestingExclusive := false, alreadyHasBlock := false
        directoryLookup := false }) []

def remoteInvalidate (addr : Address) : HierarchyEvent :=
  .remote (.invalidate { msgID := 0, addr := addr, newOwner := InvalidNodeID }) []

/-- The processor reads line 0, which both caches get. -/
def fillRun : List HierarchyEvent :=
  [processorRead 0, .processTick, .processTick, .deliver 0 [],
    .remote (.readResponse
      { msgID := 0, addr := 0, satisfied := true, blockAttached := true, directoryLookup := false
        exclusiveOwnership := true, interventionMessage := 0, isDirty := false
        solicitingMessage := 2 }) [],
    .processTick, .processTick, .deliver 0 []]

/-- The lower cache evicts line 0 for line 1 and is then told to invalidate line 0. -/
def evictedRun : List HierarchyEvent :=
  fillRun ++ [processorRead 64, .processTick, .processTick, .deliver 0 [], remoteInvalidate 0]

end Sesc.Cache
