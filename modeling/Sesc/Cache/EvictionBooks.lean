import Sesc.Cache.Invalidations
import Sesc.Cache.Queues

/-!
# The books of the evictions

A cache that is not the top one may not drop a line that the level above still holds.  It keeps
the evicted block aside, tells the level above to invalidate the line and reports the eviction
to the level below when the answer comes.  The cache tells the level above unless an
invalidation is pending, but looks for one of the tag that comes in, not of the one that goes
out.
-/

namespace Sesc.Cache

open Lib Relation

namespace CacheConfig

variable (cfg : CacheConfig)

/-- The message reports to the level below that the cache has given up the tag. -/
def reports (tag : AddrTag) : Sent → Bool
  | ⟨.remoteConnection, .eviction m, _⟩ => cfg.calcTag m.addr = tag
  | ⟨.remoteConnection, .invalidateResponse m, _⟩ => cfg.calcTag m.addr = tag
  | ⟨.remoteConnection, .readResponse m, _⟩ => m.exclusiveOwnership && cfg.calcTag m.addr = tag
  | _ => false

/-- The local connection has been told, in `told` or since, to invalidate every tag whose
eviction is pending. -/
def Tells (told : List InvalidateMsg) (a : Activation) : Prop :=
  ∀ tag, a.cache.pendingEviction tag ≠ none →
    ∃ m ∈ told ++ a.sent.filterMap Sent.localInvalidate, cfg.calcTag m.addr = tag

/-- A block is not evicted for a tag whose invalidation is pending. -/
def TellsAbove (c : BIPMOESICache) (tag : AddrTag) : Prop :=
  cfg.lookup c tag = none →
    (∀ j ∈ cfg.set (cfg.calcSetFromTag tag), (c.cacheContents j).valid = true) →
    (∃ j ∈ cfg.set (cfg.calcSetFromTag tag), (c.cacheContents j).isEvictable = true) →
    c.pendingInvalidate tag = none

variable {cfg} {a b : Activation} {tag : AddrTag} {told : List InvalidateMsg}
  {allow : Allowance} {l l' : Lines}

lemma calcTag_calcAddr_of_pos (hline : 0 < cfg.lineSize) (tag : AddrTag) :
    cfg.calcTag (cfg.calcAddr tag) = tag := Nat.mul_div_cancel tag hline

/-! ## Nothing is forgotten -/

/-- The tag is in a block, or its eviction is pending. -/
def KeptIn (l : Lines) (tag : AddrTag) : Prop := l.block tag ≠ none ∨ l.pending tag ≠ none

lemma keptIn_setBlock_some {b : BlockState} {t : AddrTag} (h : KeptIn l tag) :
    KeptIn (l.setBlock t (some b)) tag := by
  rw [KeptIn, Lines.block_setBlock, Lines.pending_setBlock]
  by_cases ht : tag = t
  · rw [if_pos ht]
    exact .inl (Option.some_ne_none b)
  · rw [if_neg ht]
    exact h

lemma keptIn_of_ne {b b' : Option BlockState} {t : AddrTag} (h : KeptIn l tag) (ht : tag ≠ t) :
    KeptIn ((l.setBlock t b).setPending t b') tag := by
  rw [KeptIn, Lines.block_setPending, Lines.pending_setPending, Lines.block_setBlock,
    Lines.pending_setBlock, if_neg ht, if_neg ht]
  exact h

/-- A tag that is no longer kept has been reported. -/
lemma Move.keptIn (hline : 0 < cfg.lineSize) (hmove : cfg.Move allow l l') (h : KeptIn l tag) :
    KeptIn l' tag ∨ ∃ s ∈ l'.sent, cfg.reports tag s = true := by
  cases hmove with
  | send s => exact .inl h
  | grant m delay => exact .inl h
  | mark b' => exact .inl (keptIn_setBlock_some h)
  | take b' => exact .inl (keptIn_setBlock_some h)
  | refuse m res delay => exact .inl h
  | share m res delay b' => exact .inl (keptIn_setBlock_some h)
  | yield m res delay b' hanswer hexclusive haddr hres =>
    by_cases ht : tag = cfg.calcTag m.addr
    · refine .inr ⟨_, List.mem_append_right _ (.head _), ?_⟩
      show (res.exclusiveOwnership && decide (cfg.calcTag res.addr = tag)) = true
      rw [hres, haddr, decide_eq_true ht.symm]
      rfl
    · left
      show _ ∨ _
      rw [Lines.block_send, Lines.pending_send, Lines.block_setBlock, Lines.pending_setBlock,
        if_neg ht]
      exact h
  | invalidate t res delay b' haddr =>
    by_cases ht : tag = t
    · refine .inr ⟨_, List.mem_append_right _ (.head _), decide_eq_true ?_⟩
      rw [haddr, calcTag_calcAddr_of_pos hline, ht]
    · exact .inl (keptIn_of_ne h ht)
  | evict t m delay htop hb haddr =>
    by_cases ht : tag = t
    · refine .inr ⟨_, List.mem_append_right _ (.head _), decide_eq_true ?_⟩
      rw [haddr, calcTag_calcAddr_of_pos hline, ht]
    · left
      show _ ∨ _
      rw [Lines.block_send, Lines.pending_send, Lines.block_setBlock, Lines.pending_setBlock,
        if_neg ht]
      exact h
  | suspend t =>
    by_cases ht : tag = t
    · refine .inl (.inr ?_)
      rw [Lines.pending_setPending, if_pos ht]
      exact Option.some_ne_none _
    · exact .inl (keptIn_of_ne h ht)
  | release t m delay hgive hp haddr =>
    by_cases ht : tag = t
    · refine .inr ⟨_, List.mem_append_right _ (.head _), decide_eq_true ?_⟩
      rw [haddr, calcTag_calcAddr_of_pos hline, ht]
    · left
      show _ ∨ _
      rw [Lines.block_send, Lines.pending_send, Lines.block_setPending, Lines.pending_setPending,
        if_neg ht]
      exact h
  | place t b => exact .inl (keptIn_setBlock_some h)
  | restore t =>
    by_cases ht : tag = t
    · refine .inl (.inl ?_)
      rw [Lines.block_setPending, Lines.block_setBlock, if_pos ht]
      exact Option.some_ne_none _
    · exact .inl (keptIn_of_ne h ht)
  | soil t =>
    left
    show _ ∨ _
    rw [Lines.block_setPending, Lines.pending_setPending]
    by_cases ht : tag = t
    · rw [if_pos ht]
      exact .inr (Option.some_ne_none _)
    · rw [if_neg ht]
      exact h

/-- What has been sent is not taken back. -/
lemma Move.sent (hmove : cfg.Move allow l l') : l.sent <+: l'.sent := by
  cases hmove <;> first
    | exact List.prefix_append _ _
    | exact List.prefix_rfl

lemma Reaches.sent (hab : cfg.Reaches allow a b) (ha : cfg.WellFormed a.cache) :
    a.sent <+: b.sent := by
  obtain ⟨-, hmoves⟩ := hab ha
  have hbefore : ∀ l, ReflTransGen (cfg.Move allow) (cfg.lines a) l → a.sent <+: l.sent := by
    intro l hl
    induction hl with
    | refl => exact List.prefix_rfl
    | tail _ hmove ih => exact ih.trans hmove.sent
  exact hbefore _ hmoves

/-- A tag that a handler gives up has been reported. -/
lemma Reaches.keptIn (hline : 0 < cfg.lineSize) (hab : cfg.Reaches allow a b)
    (ha : cfg.WellFormed a.cache) (h : KeptIn (cfg.lines a) tag) :
    KeptIn (cfg.lines b) tag ∨ ∃ s ∈ b.sent, cfg.reports tag s = true := by
  obtain ⟨-, hmoves⟩ := hab ha
  have hkeeps : ∀ l, ReflTransGen (cfg.Move allow) (cfg.lines a) l →
      KeptIn l tag ∨ ∃ s ∈ l.sent, cfg.reports tag s = true := by
    intro l hl
    induction hl with
    | refl => exact .inl h
    | tail _ hmove ih =>
      rcases ih with hkept | ⟨s, hs, hreports⟩
      · exact hmove.keptIn hline hkept
      · exact .inr ⟨s, hmove.sent.subset hs, hreports⟩
  exact hkeeps _ hmoves

/-! ## Requests -/

/-- A well-formed cache whose local connection has been told what it must be told. -/
structure Booked (cfg : CacheConfig) (told : List InvalidateMsg) (a : Activation) : Prop where
  wellFormed : cfg.WellFormed a.cache
  tells : cfg.Tells told a

/-- No eviction has begun. -/
lemma Booked.mono (h : cfg.Booked told a) (hab : cfg.Reaches allow a b)
    (hpending : ∀ tag, b.cache.pendingEviction tag ≠ none → a.cache.pendingEviction tag ≠ none) :
    cfg.Booked told b := by
  refine ⟨(hab h.wellFormed).1, fun tag htag => ?_⟩
  obtain ⟨m, hm, htag⟩ := h.tells tag (hpending tag htag)
  refine ⟨m, ?_, htag⟩
  rcases List.mem_append.1 hm with hold | hnew
  · exact List.mem_append_left _ hold
  · exact List.mem_append_right _
      (((hab.sent h.wellFormed).filterMap Sent.localInvalidate).subset hnew)

lemma pendingEviction_forwardMiss {x : BlockState} {requestingExclusive : Bool} :
    Keeps (fun a => a.cache.pendingEviction) a (cfg.forwardMiss tag x requestingExclusive a) := by
  rw [forwardMiss]
  split
  · exact keeps_ok.2 rfl
  · refine Keeps.bind (x := cfg.lockBlock tag a) ?_ fun b _ => keeps_pure.2 rfl
    rw [lockBlock]
    split
    · exact keeps_error
    · exact keeps_check_bind.2 fun _ => keeps_check_bind.2 fun _ => keeps_check_bind.2 fun _ =>
        keeps_pure.2 rfl

lemma pendingEviction_performRead (m : ReadMsg) :
    Keeps (fun a => a.cache.pendingEviction) a (cfg.performRead m a) := by
  rw [performRead]
  dsimp only
  split
  · exact keeps_error
  · split
    · exact pendingEviction_forwardMiss.bind fun b _ => keeps_pure.2 rfl
    · exact keeps_pure.2 rfl

lemma pendingEviction_performWrite (m : WriteMsg) :
    Keeps (fun a => a.cache.pendingEviction) a (cfg.performWrite m a) := by
  rw [performWrite]
  dsimp only
  split
  · exact keeps_error
  · split
    · exact pendingEviction_forwardMiss.bind fun b _ => keeps_pure.2 rfl
    · exact keeps_pure.2 rfl

lemma booked_performRead (m : ReadMsg) (h : cfg.Booked told a) :
    Ensures (cfg.Booked told) (cfg.performRead m a) := by
  intro b hb
  have hmoves : cfg.Reaches .all a b := moves_performRead trivial m b hb
  have hpending : b.cache.pendingEviction = a.cache.pendingEviction :=
    pendingEviction_performRead m b hb
  exact h.mono hmoves fun tag htag => hpending ▸ htag

lemma booked_performWrite (m : WriteMsg) (h : cfg.Booked told a) :
    Ensures (cfg.Booked told) (cfg.performWrite m a) := by
  intro b hb
  have hmoves : cfg.Reaches .all a b := moves_performWrite m b hb
  have hpending : b.cache.pendingEviction = a.cache.pendingEviction :=
    pendingEviction_performWrite m b hb
  exact h.mono hmoves fun tag htag => hpending ▸ htag

/-- A block that is prepared takes at most a pending eviction away. -/
lemma pendingEviction_prepareFreshBlock {set i : ℕ} :
    Ensures (fun b => b.sent = a.sent ∧
        ∀ u, b.cache.pendingEviction u ≠ none → a.cache.pendingEviction u ≠ none)
      (cfg.prepareFreshBlock set i tag a) := by
  rw [prepareFreshBlock]
  refine ensures_check_bind.2 fun _ => ?_
  split
  · exact ensures_pure.2 ⟨rfl, fun _ => id⟩
  · refine ensures_check_bind.2 fun _ => ensures_check_bind.2 fun _ => ensures_pure.2 ⟨rfl, ?_⟩
    intro u hu
    have hu : Function.update a.cache.pendingEviction tag none u ≠ none := hu
    by_cases hut : u = tag
    · rw [hut, Function.update_self] at hu
      exact absurd rfl hu
    · rwa [Function.update_of_ne hut] at hu

/-- When a block is evicted, the level above is told. -/
lemma booked_allocateBlock (hline : 0 < cfg.lineSize) (hlower : cfg.topCache = false)
    (habsent : cfg.lookup a.cache tag = none) (htells : cfg.TellsAbove a.cache tag)
    (h : cfg.Booked told a) : Ensures (fun r => cfg.Booked told r.2) (cfg.allocateBlock tag a) := by
  rintro ⟨result, b⟩ hb
  have hmoves : cfg.Reaches .all a b := moves_allocateBlock .all habsent _ hb
  rw [allocateBlock] at hb
  dsimp only at hb
  split at hb
  · obtain ⟨d, hd, hret⟩ := bind_eq_ok.1 hb
    cases hret
    exact h.mono hmoves (pendingEviction_prepareFreshBlock b hd).2
  · rename_i hfind
    obtain ⟨⟨eviction, d⟩, hevict, hb⟩ := bind_eq_ok.1 hb
    obtain ⟨hcache, hsent, hfound⟩ := evict_eq_ok hevict
    dsimp only at hb
    split at hb
    · cases hb
      have hpending : b.cache.pendingEviction = a.cache.pendingEviction := congrArg _ hcache
      exact h.mono hmoves fun u hu => hpending ▸ hu
    · rename_i i
      obtain ⟨hi, hevictable⟩ := hfound i rfl
      rw [if_neg (by rw [hlower]; exact Bool.false_ne_true)] at hb
      obtain ⟨-, hb⟩ := check_bind_eq_ok.1 hb
      obtain ⟨f, hf, hret⟩ := bind_eq_ok.1 hb
      cases hret
      have hnone : d.cache.pendingInvalidate tag = none := by
        rw [hcache]
        refine htells habsent (fun k hk => ?_) ⟨_, mem_set_iff.2 ⟨i, hi, rfl⟩, hevictable⟩
        obtain ⟨i', hi', rfl⟩ := mem_set_iff.1 hk
        have hvalid := List.find?_eq_none.1 hfind i' (List.mem_range.2 hi')
        rwa [Bool.not_eq_true', Bool.not_eq_false] at hvalid
      generalize hu : (d.cache.cacheContents
        (cfg.blockIndex (cfg.calcSetFromTag tag) i)).tag = u at hf
      have hnone' : (d.setPendingEviction u (some (d.cache.cacheContents
          (cfg.blockIndex (cfg.calcSetFromTag tag) i)))).cache.pendingInvalidate tag = none := hnone
      rw [hnone'] at hf
      obtain ⟨hsent', hpending⟩ := pendingEviction_prepareFreshBlock b hf
      refine ⟨(hmoves h.wellFormed).1, fun t ht => ?_⟩
      have hsent' : b.sent.filterMap Sent.localInvalidate =
          a.sent.filterMap Sent.localInvalidate ++ [
            { msgID := d.currentMsgStamp, addr := cfg.calcAddr u, newOwner := InvalidNodeID }] := by
        rw [hsent']
        show (d.sent ++ [_]).filterMap _ = _
        rw [List.filterMap_append, hsent]
        rfl
      rw [hsent']
      by_cases htu : t = u
      · refine ⟨_, List.mem_append_right _ (List.mem_append_right _ (.head _)), ?_⟩
        rw [htu]
        exact calcTag_calcAddr_of_pos hline u
      · have ht := hpending t ht
        have ht : Function.update d.cache.pendingEviction u _ t ≠ none := ht
        rw [Function.update_of_ne htu, hcache] at ht
        obtain ⟨m, hm, htag⟩ := h.tells t ht
        rw [← List.append_assoc]
        exact ⟨m, List.mem_append_left _ hm, htag⟩

lemma booked_onLocalRead (hline : 0 < cfg.lineSize) (hlower : cfg.topCache = false) (m : ReadMsg)
    (htells : cfg.TellsAbove a.cache (cfg.calcTag m.addr)) (h : cfg.Booked told a) :
    Ensures (cfg.Booked told) (cfg.onLocalRead m a) := by
  rw [onLocalRead]
  dsimp only
  split
  · exact booked_performRead m h
  · rename_i hnone
    refine Ensures.bind (booked_allocateBlock hline hlower hnone htells h) fun r hr => ?_
    split
    · exact booked_performRead m hr
    · exact ensures_pure.2 ⟨hr.wellFormed.tables rfl rfl, hr.tells⟩

lemma booked_onLocalWrite (hline : 0 < cfg.lineSize) (hlower : cfg.topCache = false)
    (m : WriteMsg) (htells : cfg.TellsAbove a.cache (cfg.calcTag m.addr)) (h : cfg.Booked told a) :
    Ensures (cfg.Booked told) (cfg.onLocalWrite m a) := by
  rw [onLocalWrite]
  dsimp only
  split
  · exact booked_performWrite m h
  · rename_i hnone
    refine Ensures.bind (booked_allocateBlock hline hlower hnone htells h) fun r hr => ?_
    split
    · exact booked_performWrite m hr
    · exact ensures_pure.2 ⟨hr.wellFormed.tables rfl rfl, hr.tells⟩

lemma booked_performBlockWaiters (l : List BlockWaiter) (h : cfg.Booked told a) :
    Ensures (cfg.Booked told) (cfg.performBlockWaiters l a) := by
  induction l generalizing a with
  | nil => exact ensures_ok.2 h
  | cons w rest ih =>
    cases w with
    | performRead m => exact Ensures.bind (booked_performRead m h) fun b hb => ih hb
    | performWrite m => exact Ensures.bind (booked_performWrite m h) fun b hb => ih hb

variable (cfg) in
/-- No request of the list evicts a block while the invalidation of its tag is pending. -/
def TellsEach : List SetWaiter → Activation → Prop
  | [], _ => True
  | w :: rest, a => cfg.TellsAbove a.cache (cfg.tagOf w.request) ∧
      Ensures (TellsEach rest) (cfg.retrySetWaiters [w] a)

/-- The requests of a list are retried one after the other. -/
lemma retrySetWaiters_cons (w : SetWaiter) (rest : List SetWaiter) :
    cfg.retrySetWaiters (w :: rest) a =
      cfg.retrySetWaiters [w] a >>= fun b => cfg.retrySetWaiters rest b := by
  cases w with
  | read m => cases h : cfg.onLocalRead m a <;> simp [retrySetWaiters, h]
  | write m => cases h : cfg.onLocalWrite m a <;> simp [retrySetWaiters, h]

lemma booked_retrySetWaiter (hline : 0 < cfg.lineSize) (hlower : cfg.topCache = false)
    (w : SetWaiter) (htells : cfg.TellsAbove a.cache (cfg.tagOf w.request))
    (h : cfg.Booked told a) : Ensures (cfg.Booked told) (cfg.retrySetWaiters [w] a) := by
  cases w with
  | read m =>
    exact Ensures.bind (booked_onLocalRead hline hlower m htells h) fun b hb => ensures_ok.2 hb
  | write m =>
    exact Ensures.bind (booked_onLocalWrite hline hlower m htells h) fun b hb => ensures_ok.2 hb

lemma booked_retrySetWaiters (hline : 0 < cfg.lineSize) (hlower : cfg.topCache = false)
    (l : List SetWaiter) (htells : cfg.TellsEach l a) (h : cfg.Booked told a) :
    Ensures (cfg.Booked told) (cfg.retrySetWaiters l a) := by
  induction l generalizing a with
  | nil => exact ensures_ok.2 h
  | cons w rest ih =>
    rw [retrySetWaiters_cons]
    intro d hd
    obtain ⟨b, hb, hd⟩ := bind_eq_ok.1 hd
    exact ih (htells.2 b hb) (booked_retrySetWaiter hline hlower w htells.1 h b hb) d hd

/-! ## The answer of the level below -/

variable (cfg) in
/-- The block at `j` has got its answer and is unlocked; the requests that waited for it are to be
performed. -/
def opened (m : ReadResponseMsg) (j : ℕ) (a : Activation) : Activation :=
  ((a.modifyBlock j fun b =>
    { b with state := if m.exclusiveOwnership then .exclusive else .shared }).modifyBlock j
    fun b => { b with locked := false }).setWaitingOnBlockUnlock (cfg.calcTag m.addr) []

variable (cfg) in
/-- The requests that wait for the set are retried unless the block is locked again. -/
def TellsUnlocked (m : ReadResponseMsg) (j : ℕ) (b : Activation) : Prop :=
  (b.cache.cacheContents j).locked = false →
    cfg.TellsEach (b.cache.waitingOnSetUnlock (cfg.calcSetFromTag (cfg.calcTag m.addr)))
      (b.setWaitingOnSetUnlock (cfg.calcSetFromTag (cfg.calcTag m.addr)) [])

variable (cfg) in
/-- The requests that the answer of the level below sets going evict no block while the
invalidation of their tag is pending. -/
def TellsAnswered (m : ReadResponseMsg) (a : Activation) : Prop :=
  ∀ j ∈ cfg.lookup a.cache (cfg.calcTag m.addr), (a.cache.cacheContents j).locked = true →
    Ensures (cfg.TellsUnlocked m j) (cfg.performBlockWaiters
      (a.cache.waitingOnBlockUnlock (cfg.calcTag m.addr)) (cfg.opened m j a))

lemma Booked.opened {j : ℕ} {m : ReadResponseMsg} (h : cfg.Booked told a)
    (hj : cfg.lookup a.cache (cfg.calcTag m.addr) = some j) :
    cfg.Booked told (cfg.opened m j a) := by
  obtain ⟨hwf, hsame, -⟩ := h.wellFormed.block_modify hj (f := fun b =>
    { b with state := if m.exclusiveOwnership then .exclusive else .shared }) ⟨rfl, rfl⟩
  have hj' : cfg.lookup (a.modifyBlock j fun b =>
      { b with state := if m.exclusiveOwnership then .exclusive else .shared }).cache
      (cfg.calcTag m.addr) = some j := (congrFun hsame _).trans hj
  have hwf' := (hwf.block_modify hj' (f := fun b => { b with locked := false }) ⟨rfl, rfl⟩).1
  exact ⟨hwf'.tables rfl rfl, h.tells⟩

lemma booked_onRemoteReadResponse (hline : 0 < cfg.lineSize) (hlower : cfg.topCache = false)
    {m : ReadResponseMsg} (htells : cfg.TellsAnswered m a) (h : cfg.Booked told a) :
    Ensures (cfg.Booked told) (cfg.onRemoteReadResponse m a) := by
  intro b hb
  have hmoves : cfg.Reaches .all a b :=
    moves_onRemoteReadResponse trivial trivial trivial b hb
  rw [onRemoteReadResponse] at hb
  split at hb
  · cases hb
    refine h.mono hmoves fun tag htag => ?_
    split at htag <;> exact htag
  · rename_i j hj
    split at hb
    · cases hb
      refine h.mono hmoves fun tag htag => ?_
      split at htag <;> exact htag
    · rename_i hlocked
      have hlocked : (a.cache.cacheContents j).locked = true := Bool.not_eq_false _ ▸ hlocked
      have hsame : cfg.lookup (a.modifyBlock j fun b =>
          { b with state := if m.exclusiveOwnership then .exclusive else .shared }).cache =
          cfg.lookup a.cache := lookup_modifyBlock fun x => ⟨rfl, rfl⟩
      rw [unlockBlock, hsame, hj] at hb
      obtain ⟨-, hb⟩ := check_bind_eq_ok.1 hb
      obtain ⟨-, hb⟩ := check_bind_eq_ok.1 hb
      dsimp only at hb
      obtain ⟨-, hb⟩ := check_bind_eq_ok.1 hb
      obtain ⟨d, hd, hb⟩ := bind_eq_ok.1 hb
      have hd : cfg.performBlockWaiters (a.cache.waitingOnBlockUnlock (cfg.calcTag m.addr))
        (cfg.opened m j a) = .ok d := hd
      have hbooked := booked_performBlockWaiters _ (h.opened hj) d hd
      split at hb
      · cases hb
        exact hbooked
      · rename_i hunlocked
        have heach := htells j hj hlocked d hd (Bool.eq_false_iff.2 hunlocked)
        refine booked_retrySetWaiters hline hlower _ heach ?_ b hb
        exact ⟨hbooked.wellFormed.tables rfl rfl, hbooked.tells⟩

/-! ## Reads and invalidations -/

lemma pendingEviction_performRemoteRead (m : ReadMsg) :
    Keeps (fun a => a.cache.pendingEviction) a (cfg.performRemoteRead m a) := by
  intro b hb
  obtain ⟨res, c, hanswers, -, -, -, rfl⟩ := performRemoteRead_eq_ok hb
  cases hanswers <;> rfl

lemma pendingEviction_performRemoteReads (l : List ReadMsg) :
    Keeps (fun a => a.cache.pendingEviction) a (cfg.performRemoteReads l a) := by
  induction l generalizing a with
  | nil => exact keeps_ok.2 rfl
  | cons m rest ih => exact (pendingEviction_performRemoteRead m).bind fun b _ => ih

/-- The answer to an invalidation ends the eviction of its tag and no other. -/
lemma pendingEviction_respondInvalidate (hline : 0 < cfg.lineSize) (ha : cfg.WellFormed a.cache)
    (h : cfg.respondInvalidate tag a = .ok b) :
    b.cache.pendingEviction tag = none ∧
      (∀ t, b.cache.pendingEviction t ≠ none → a.cache.pendingEviction t ≠ none) ∧
      ∃ s ∈ b.sent, cfg.reports tag s = true := by
  obtain ⟨p, res, c, -, haddr, hinvalidates, rfl⟩ := respondInvalidate_eq_ok h
  have hreports : cfg.reports tag ⟨.remoteConnection, .invalidateResponse res,
      cfg.invalidateTime⟩ = true := by
    refine decide_eq_true ?_
    rw [haddr, calcTag_calcAddr_of_pos hline]
  cases hinvalidates with
  | refetch j m hj hwaiters hdirty hm =>
    refine ⟨ha.pending_eq_none hj, fun t => id, _, ?_, hreports⟩
    exact List.mem_append_left _ (List.mem_append_right _ (.head _))
  | erase j hj hwaiters hdirty =>
    exact ⟨ha.pending_eq_none hj, fun t => id, _, List.mem_append_right _ (.head _), hreports⟩
  | absent d hnone hwaiters hdirty hcontents hpending hsent =>
    refine ⟨?_, fun t ht => ?_, _, List.mem_append_right _ (.head _), hreports⟩
    · show d.cache.pendingEviction tag = none
      rw [hpending, Function.update_self]
    · have ht : d.cache.pendingEviction t ≠ none := ht
      rw [hpending] at ht
      by_cases htt : t = tag
      · rw [htt, Function.update_self] at ht
        exact absurd rfl ht
      · rwa [Function.update_of_ne htt] at ht

/-- The answer of the level above ends the eviction of its tag, which is reported. -/
lemma pendingEviction_onLocalInvalidateResponse (hline : 0 < cfg.lineSize)
    (ha : cfg.WellFormed a.cache) {m : InvalidateResponseMsg}
    (h : cfg.onLocalInvalidateResponse m a = .ok b) :
    b.cache.pendingEviction (cfg.calcTag m.addr) = none ∧
      (∀ t, b.cache.pendingEviction t ≠ none → a.cache.pendingEviction t ≠ none) ∧
      (a.cache.pendingEviction (cfg.calcTag m.addr) ≠ none →
        ∃ s ∈ b.sent, cfg.reports (cfg.calcTag m.addr) s = true) := by
  rw [onLocalInvalidateResponse] at h
  obtain ⟨-, h⟩ := check_bind_eq_ok.1 h
  split at h
  · obtain ⟨hnone, h⟩ := check_bind_eq_ok.1 h
    obtain ⟨-, h⟩ := check_bind_eq_ok.1 h
    cases h
    exact ⟨hnone, fun t => id, fun hne => absurd hnone hne⟩
  · dsimp only at h
    generalize hc : (ite (m.blockAttached = true) _ a : Activation) = c at h
    obtain ⟨hwf, hpending⟩ : cfg.WellFormed c.cache ∧
        ∀ t, c.cache.pendingEviction t ≠ none ↔ a.cache.pendingEviction t ≠ none := by
      rw [← hc]
      split
      · split
        · rename_i x hx
          refine ⟨ha.soil hx, fun t => ?_⟩
          show Function.update a.cache.pendingEviction _ _ t ≠ none ↔ _
          by_cases ht : t = cfg.calcTag m.addr
          · rw [ht, Function.update_self, hx]
            exact iff_of_true (Option.some_ne_none _) (Option.some_ne_none _)
          · rw [Function.update_of_ne ht]
        · split
          · rename_i j hp hj
            exact ⟨(ha.block_modify hj ⟨rfl, rfl⟩).1, fun t => .rfl⟩
          · exact ⟨ha, fun t => .rfl⟩
      · exact ⟨ha, fun t => .rfl⟩
    split at h
    · obtain ⟨d, hd, h⟩ := bind_eq_ok.1 h
      obtain ⟨hnone, hkept, hreports⟩ := pendingEviction_respondInvalidate hline hwf hd
      rw [hnone] at h
      cases h
      exact ⟨hnone, fun t ht => (hpending t).1 (hkept t ht), fun _ => hreports⟩
    · rw [pure_bind] at h
      split at h
      · cases h
        refine ⟨Function.update_self _ _ _, fun t ht => ?_, fun _ => ⟨_, List.mem_append_right _
          (.head _), decide_eq_true (calcTag_calcAddr_of_pos hline _)⟩⟩
        have ht : Function.update c.cache.pendingEviction _ none t ≠ none := ht
        by_cases htt : t = cfg.calcTag m.addr
        · rw [htt, Function.update_self] at ht
          exact absurd rfl ht
        · rw [Function.update_of_ne htt] at ht
          exact (hpending t).1 ht
      · rename_i hnone
        cases h
        refine ⟨hnone, fun t => (hpending t).1, fun hne => ?_⟩
        exact absurd hnone ((hpending _).2 hne)

/-- The messages that are no requests begin no eviction. -/
lemma pendingEviction_recvMsg (hline : 0 < cfg.lineSize) (ha : cfg.WellFormed a.cache)
    {port : Port} {msg : Msg} (hside : side port msg ≠ some .requests)
    (h : cfg.recvMsg port msg a = .ok b) (tag : AddrTag) :
    b.cache.pendingEviction tag ≠ none → a.cache.pendingEviction tag ≠ none := by
  have hsame : b.cache.pendingEviction = a.cache.pendingEviction →
      b.cache.pendingEviction tag ≠ none → a.cache.pendingEviction tag ≠ none := by
    intro heq hb
    rwa [heq] at hb
  cases port <;> cases msg
  case localConnection.eviction m =>
    have h : cfg.onLocalEviction m a = .ok b := h
    rw [onLocalEviction] at h
    cases h
    refine hsame ?_
    show (Activation.cache _).pendingEviction = _
    split
    · split <;> rfl
    · rfl
  case localConnection.readResponse m =>
    have hkept : b.cache.pendingEviction =
        (a.setWaitingOnRemoteReads (cfg.calcTag m.addr) []).cache.pendingEviction :=
      pendingEviction_performRemoteReads _ b h
    exact hsame hkept
  case localConnection.invalidateResponse m =>
    exact (pendingEviction_onLocalInvalidateResponse hline ha h).2.1 tag
  case remoteConnection.read m =>
    have h : cfg.onRemoteRead m a = .ok b := h
    rw [onRemoteRead] at h
    dsimp only at h
    split at h
    · exact hsame (pendingEviction_performRemoteRead m b h)
    · split at h
      · exact hsame (pendingEviction_performRemoteRead m b h)
      · cases h
        exact id
  case remoteConnection.invalidate m =>
    have h : cfg.onRemoteInvalidate m a = .ok b := h
    rw [onRemoteInvalidate] at h
    dsimp only at h
    split at h
    · cases h
      exact id
    · have hwf : cfg.WellFormed
          (a.setPendingInvalidate (cfg.calcTag m.addr) (some m)).cache := ha.tables rfl rfl
      split at h
      · exact (pendingEviction_respondInvalidate hline hwf h).2.1 tag
      · split at h
        · cases h
          exact id
        · exact (pendingEviction_respondInvalidate hline hwf h).2.1 tag
  all_goals first
    | exact absurd rfl hside
    | (cases h; exact id)
    | cases h

end CacheConfig

/-! ## The books -/

/-- A cache, the invalidations that the level above has not answered, and the tags that the
cache has held and has given up without a word to the level below. -/
structure EvictionBooks where
  device : Device
  outstanding : List InvalidateMsg
  left : AddrTag → Bool

namespace CacheConfig

variable (cfg : CacheConfig)

def evictionsStep (s : EvictionBooks) : DeviceEvent → Except Fault EvictionBooks
  | .recvMsg port msg rands => do
    let a ← cfg.recvMsg port msg (s.device.activation rands)
    return {
      device := { s.device with cache := a.cache, currentMsgStamp := a.currentMsgStamp }
      outstanding :=
        cfg.unanswered s.outstanding port msg ++ a.sent.filterMap Sent.localInvalidate
      left := fun tag => (s.left tag || (cfg.lookup s.device.cache tag).isSome) &&
        (cfg.lookup a.cache tag).isNone && !a.sent.any (cfg.reports tag) }
  | .processTick =>
    .ok { s with device := { s.device with currentTick := s.device.currentTick + 1 } }

/-- The machine of a cache whose evictions are entered in the books. -/
def evictions : Machine EvictionBooks DeviceEvent Fault where
  init := ⟨.new, [], fun _ => false⟩
  step := cfg.evictionsStep

/-- A step that lets a block be evicted tells the level above. -/
def TellsStep (s : EvictionBooks) : DeviceEvent → Prop
  | .recvMsg .localConnection (.read m) _ => cfg.TellsAbove s.device.cache (cfg.calcTag m.addr)
  | .recvMsg .localConnection (.write m) _ => cfg.TellsAbove s.device.cache (cfg.calcTag m.addr)
  | .recvMsg .remoteConnection (.readResponse m) rands =>
    cfg.TellsAnswered m (s.device.activation rands)
  | _ => True

/-- For every eviction that is pending the level above has yet to answer an invalidation, and
its answer ends the eviction; and the eviction of a tag that has been given up without a report
is pending, or its invalidation is. -/
structure EvictionsBooked (s : EvictionBooks) : Prop where
  told : ∀ tag, s.device.cache.pendingEviction tag ≠ none →
    ∃ m ∈ s.outstanding, cfg.calcTag m.addr = tag
  ends : ∀ m rands, s.device.cache.pendingEviction (cfg.calcTag m.addr) ≠ none →
    Ensures (fun b => b.cache.pendingEviction (cfg.calcTag m.addr) = none ∧
        ∃ s ∈ b.sent, cfg.reports (cfg.calcTag m.addr) s = true)
      (cfg.onLocalInvalidateResponse m (s.device.activation rands))
  left : ∀ tag, s.left tag = true → s.device.cache.pendingEviction tag ≠ none ∨
    s.device.cache.pendingInvalidate tag ≠ none

/-- What a run keeps. -/
structure BooksInv (s : EvictionBooks) : Prop where
  wellFormed : cfg.WellFormed s.device.cache
  told : ∀ tag, s.device.cache.pendingEviction tag ≠ none →
    ∃ m ∈ s.outstanding, cfg.calcTag m.addr = tag
  left : ∀ tag, s.left tag = true → s.device.cache.pendingEviction tag ≠ none

variable {cfg} {s s' : EvictionBooks} {port : Port} {msg : Msg} {rands : List ℕ} {a : Activation}

lemma booksInv_new : cfg.BooksInv ⟨.new, [], fun _ => false⟩ where
  wellFormed := .new
  told _ h := absurd rfl h
  left _ h := absurd h Bool.false_ne_true

/-- The level above is told. -/
lemma BooksInv.tells (hline : 0 < cfg.lineSize) (hlower : cfg.topCache = false)
    (hs : cfg.BooksInv s) (htells : cfg.TellsStep s (.recvMsg port msg rands))
    (ha : cfg.recvMsg port msg (s.device.activation rands) = .ok a) (tag : AddrTag)
    (htag : a.cache.pendingEviction tag ≠ none) :
    ∃ m ∈ cfg.unanswered s.outstanding port msg ++ a.sent.filterMap Sent.localInvalidate,
      cfg.calcTag m.addr = tag := by
  have hwf : cfg.WellFormed (s.device.activation rands).cache := hs.wellFormed
  have hbooked : cfg.Booked s.outstanding (s.device.activation rands) := by
    refine ⟨hwf, fun u hu => ?_⟩
    obtain ⟨m, hm, hmu⟩ := hs.told u hu
    exact ⟨m, List.mem_append_left _ hm, hmu⟩
  by_cases hside : side port msg = some .requests
  · have hsame : cfg.unanswered s.outstanding port msg = s.outstanding := by
      cases port <;> cases msg <;> first
        | rfl
        | cases hside
    rw [hsame]
    cases port <;> cases msg
    case localConnection.read m =>
      exact (booked_onLocalRead (a := s.device.activation rands) hline hlower m htells hbooked a
        ha).tells tag htag
    case localConnection.write m =>
      exact (booked_onLocalWrite (a := s.device.activation rands) hline hlower m htells hbooked a
        ha).tells tag htag
    case remoteConnection.readResponse m =>
      exact (booked_onRemoteReadResponse hline hlower htells hbooked a ha).tells tag htag
    all_goals cases hside
  · have hold := pendingEviction_recvMsg hline hwf hside ha tag htag
    obtain ⟨m, hm, hmt⟩ := hs.told tag hold
    refine ⟨m, List.mem_append_left _ ?_, hmt⟩
    cases port <;> cases msg
    case localConnection.invalidateResponse r =>
      -- the answer is for another tag, as it ends the eviction of its own
      refine (List.mem_eraseP_of_neg fun h => ?_).2 hm
      have hr := (of_decide_eq_true h).1
      have hnone := (pendingEviction_onLocalInvalidateResponse hline hwf ha).1
      rw [← hr, hmt] at hnone
      exact htag hnone
    all_goals exact hm

lemma BooksInv.step (hline : 0 < cfg.lineSize) (hlower : cfg.topCache = false)
    (hs : cfg.BooksInv s) {e : DeviceEvent} (htells : cfg.TellsStep s e)
    (h : cfg.evictions.step s e = .ok s') : cfg.BooksInv s' := by
  cases e with
  | processTick =>
    cases h
    exact ⟨hs.wellFormed, hs.told, hs.left⟩
  | recvMsg port msg rands =>
    obtain ⟨a, ha, hret⟩ := bind_eq_ok.1 h
    have hwf : cfg.WellFormed (s.device.activation rands).cache := hs.wellFormed
    have hmoves : cfg.Reaches _ (s.device.activation rands) a := moves_recvMsg port msg a ha
    have htold := hs.tells hline hlower htells ha
    cases hret
    refine ⟨(hmoves hwf).1, htold, fun tag htag => ?_⟩
    have htag : ((s.left tag || (cfg.lookup s.device.cache tag).isSome) &&
      (cfg.lookup a.cache tag).isNone && !a.sent.any (cfg.reports tag)) = true := htag
    rw [Bool.and_eq_true, Bool.and_eq_true, Bool.or_eq_true, Bool.not_eq_true'] at htag
    obtain ⟨⟨hheld, hgone⟩, hsilent⟩ := htag
    have hkept : KeptIn (cfg.lines (s.device.activation rands)) tag := by
      rcases hheld with hleft | hheld
      · exact .inr (hs.left tag hleft)
      · obtain ⟨j, hj⟩ := Option.isSome_iff_exists.1 hheld
        refine .inl ?_
        show cfg.block s.device.cache tag ≠ none
        rw [block_of_lookup hj]
        exact Option.some_ne_none _
    rcases hmoves.keptIn hline hwf hkept with (hblock | hpending) | ⟨t, ht, hreports⟩
    · have hnone := block_of_lookup_none (Option.isNone_iff_eq_none.1 hgone)
      exact absurd hnone hblock
    · exact hpending
    · rw [List.any_eq_false] at hsilent
      exact absurd hreports (hsilent t ht)

/-- In every run of a cache that is not the top one, in which no block is evicted for a tag whose
invalidation is pending, the evictions are booked. -/
theorem evictionsBooked_of_runWhere (cfg : CacheConfig) (hline : 0 < cfg.lineSize)
    (hlower : cfg.topCache = false) (es : List DeviceEvent) (s : EvictionBooks)
    (h : cfg.evictions.RunWhere cfg.TellsStep es s) : cfg.EvictionsBooked s := by
  have hs : cfg.BooksInv s :=
    h.invariant booksInv_new fun s e s' hs htells hstep => hs.step hline hlower htells hstep
  refine ⟨hs.told, fun m rands hm b hb => ?_, fun tag htag => .inl (hs.left tag htag)⟩
  obtain ⟨hnone, -, hreports⟩ := pendingEviction_onLocalInvalidateResponse hline
    (a := s.device.activation rands) hs.wellFormed hb
  exact ⟨hnone, hreports hm⟩

/-! ## An eviction for a line that is being invalidated -/

instance (c : BIPMOESICache) (tag : AddrTag) : Decidable (cfg.TellsAbove c tag) :=
  inferInstanceAs (Decidable (_ → (∀ j ∈ cfg.set (cfg.calcSetFromTag tag), _) →
    (∃ j ∈ cfg.set (cfg.calcSetFromTag tag), _) → _))

instance : ∀ l a, Decidable (cfg.TellsEach l a)
  | [], _ => .isTrue trivial
  | w :: rest, a =>
    have : DecidablePred (cfg.TellsEach rest) := fun b => instDecidableTellsEach rest b
    inferInstanceAs (Decidable (cfg.TellsAbove a.cache (cfg.tagOf w.request) ∧
      Ensures (cfg.TellsEach rest) (cfg.retrySetWaiters [w] a)))

instance (m : ReadResponseMsg) (j : ℕ) : DecidablePred (cfg.TellsUnlocked m j) := fun _ =>
  inferInstanceAs (Decidable (_ → cfg.TellsEach _ _))

instance (m : ReadResponseMsg) (a : Activation) : Decidable (cfg.TellsAnswered m a) :=
  inferInstanceAs (Decidable (∀ j ∈ cfg.lookup a.cache (cfg.calcTag m.addr), _ →
    Ensures (cfg.TellsUnlocked m j) _))

instance (s : EvictionBooks) (e : DeviceEvent) : Decidable (cfg.TellsStep s e) := by
  cases e with
  | processTick => exact .isTrue trivial
  | recvMsg port msg rands =>
    cases port <;> cases msg <;> first
      | exact inferInstanceAs (Decidable (cfg.TellsAbove _ _))
      | exact inferInstanceAs (Decidable (cfg.TellsAnswered _ _))
      | exact .isTrue trivial

end CacheConfig

/-- Line 0, which the level above holds, is invalidated and then evicted for line 1; before the
level above has answered it asks for line 0 again, and line 1 is evicted. -/
def unheardRun : List DeviceEvent :=
  crossingRun.take 2 ++ [
    .recvMsg .remoteConnection (.invalidate { msgID := 7, addr := 0, newOwner := 1 }) [],
    .recvMsg .localConnection (.read
      { msgID := 9, addr := 64, requestingExclusive := false, alreadyHasBlock := false
        directoryLookup := false }) [],
    .recvMsg .remoteConnection (.readResponse
      { msgID := 11, addr := 64, satisfied := true, blockAttached := true, directoryLookup := false
        exclusiveOwnership := false, interventionMessage := 0, isDirty := false
        solicitingMessage := 10 }) [],
    .recvMsg .localConnection (.read
      { msgID := 13, addr := 0, requestingExclusive := false, alreadyHasBlock := false
        directoryLookup := false }) []]

/-- The level above is not told of the eviction of line 1. -/
theorem not_evictionsBooked_of_unheard : ∃ s,
    (CacheConfig.evictions .oneBlock).Run unheardRun s ∧
    ¬CacheConfig.EvictionsBooked .oneBlock s := by
  have hrun : succeeds ((CacheConfig.evictions .oneBlock).exec (CacheConfig.evictions .oneBlock).init
      unheardRun) (fun s => decide (s.device.cache.pendingEviction 1 ≠ none ∧
        ∀ m ∈ s.outstanding, CacheConfig.calcTag .oneBlock m.addr ≠ 1)) = true := by
    decide +kernel
  obtain ⟨s, hs, htest⟩ := succeeds_iff.1 hrun
  obtain ⟨hpending, hnone⟩ := of_decide_eq_true htest
  refine ⟨s, Machine.run_of_exec hs, fun h => ?_⟩
  obtain ⟨m, hm, htag⟩ := h.told 1 hpending
  exact hnone m hm htag

/-- Line 0 is evicted for line 1, and the level above is told. -/
theorem evictionsBooked_crossing : ∃ s,
    (CacheConfig.evictions .oneBlock).RunWhere (CacheConfig.TellsStep .oneBlock) crossingRun s ∧
    s.device.cache.pendingEviction 0 ≠ none ∧ CacheConfig.EvictionsBooked .oneBlock s := by
  have hrun : succeeds (((CacheConfig.evictions .oneBlock).guarded
      (fun s e => decide (CacheConfig.TellsStep .oneBlock s e)) .assertion).exec
      (CacheConfig.evictions .oneBlock).init crossingRun)
      (fun s => decide (s.device.cache.pendingEviction 0 ≠ none)) = true := by
    decide +kernel
  obtain ⟨s, hs, htest⟩ := succeeds_iff.1 hrun
  have hwhere := (Machine.Run.of_guarded (Machine.run_of_exec hs)).mono
    (D := CacheConfig.TellsStep .oneBlock) fun s e h => of_decide_eq_true h
  exact ⟨s, hwhere, of_decide_eq_true htest, CacheConfig.evictionsBooked_of_runWhere .oneBlock
    (by decide) rfl crossingRun s hwhere⟩

end Sesc.Cache
