import Sesc.Cache.Frame
import Sesc.Cache.Moves

/-!
# The queues of local requests

A local request that misses waits until its block is unlocked, or until some block of its set
is.  A block is locked exactly as long as requests wait for it, and requests wait for a set
only while all its blocks are locked.  Two states in between are left out: a block that has
just been allocated may be invalid without being locked, and while the requests for an
unlocked block are performed the queue of its set has not been looked at.
-/

namespace Sesc.Cache

open Lib

/-- A local request, as an answer names it. -/
inductive Request
  | read (msgID : MessageID) (addr : Address)
  | write (msgID : MessageID) (addr : Address)
deriving DecidableEq, Repr

def Request.addr : Request → Address
  | read _ addr => addr
  | write _ addr => addr

def BlockWaiter.request : BlockWaiter → Request
  | performRead m => .read m.msgID m.addr
  | performWrite m => .write m.msgID m.addr

def SetWaiter.request : SetWaiter → Request
  | read m => .read m.msgID m.addr
  | write m => .write m.msgID m.addr

def LocalAnswer.request : LocalAnswer → Request
  | read m => .read m.solicitingMessage m.addr
  | write m => .write m.solicitingMessage m.addr

/-- Everything is allowed. -/
def Allowance.all : Allowance := ⟨fun _ => True, fun _ _ => True, True, fun _ => True, fun _ => True⟩

namespace CacheConfig

variable (cfg : CacheConfig)

/-- The tag and the set of a request. -/
def tagOf (r : Request) : AddrTag := cfg.calcTag r.addr

def setOf (r : Request) : ℕ := cfg.calcSetFromTag (cfg.tagOf r)

/-- The queues are in order, up to the block of the tag `fresh`, which may be invalid without
being locked, and the block at the index `opened`, which may be unlocked while requests wait
for its set. -/
structure Queues (fresh : Option AddrTag) (opened : Option ℕ) (c : BIPMOESICache) : Prop where
  wellFormed : cfg.WellFormed c
  locked : ∀ tag x, cfg.block c tag = some x →
    (x.locked = true ↔ c.waitingOnBlockUnlock tag ≠ [])
  held : ∀ tag, c.waitingOnBlockUnlock tag ≠ [] → cfg.block c tag ≠ none
  invalid : ∀ tag x, cfg.block c tag = some x → x.state = .invalid → some tag ≠ fresh →
    x.locked = true
  full : ∀ i, c.waitingOnSetUnlock i ≠ [] → ∀ j ∈ cfg.set i,
    (c.cacheContents j).valid = true ∧ (some j ≠ opened → (c.cacheContents j).locked = true)
  filedBlock : ∀ tag, ∀ w ∈ c.waitingOnBlockUnlock tag, cfg.tagOf w.request = tag
  filedSet : ∀ i, ∀ w ∈ c.waitingOnSetUnlock i, cfg.setOf w.request = i

/-- How often a request has been answered or waits. -/
def load (r : Request) (a : Activation) : ℕ :=
  ((a.sent.filterMap Sent.localAnswer).map LocalAnswer.request).count r +
    ((a.cache.waitingOnBlockUnlock (cfg.tagOf r)).map BlockWaiter.request).count r +
    ((a.cache.waitingOnSetUnlock (cfg.setOf r)).map SetWaiter.request).count r

variable {cfg} {fresh : Option AddrTag} {opened : Option ℕ} {a b : Activation}
  {c c' : BIPMOESICache} {tag : AddrTag} {j : ℕ} {r : Request}

/-- The answers and the queues make the load. -/
lemma load_congr (h : b.localTraffic = a.localTraffic) : cfg.load r b = cfg.load r a := by
  obtain ⟨hblock, hrest⟩ := Prod.mk.inj h
  obtain ⟨hset, hsent⟩ := Prod.mk.inj hrest
  rw [load, load, hblock, hset, hsent]

lemma Queues.new : cfg.Queues none none .new where
  wellFormed := .new
  locked tag x h := by
    rw [block_of_lookup_none (lookup_new tag)] at h
    cases h
  held _ h := absurd rfl h
  invalid tag x h := by
    rw [block_of_lookup_none (lookup_new tag)] at h
    cases h
  full _ h := absurd rfl h
  filedBlock _ _ h := nomatch h
  filedSet _ _ h := nomatch h

/-! ## Changing one block -/

/-- The blocks after the one of a tag has been replaced by another one with its tag. -/
lemma WellFormed.block_replace (hc : cfg.WellFormed c) (hj : cfg.lookup c tag = some j)
    {x : BlockState} (hx : x.valid = true ∧ x.tag = tag)
    (hcontents : c'.cacheContents = Function.update c.cacheContents j x) (u : AddrTag) :
    cfg.block c' u = if u = tag then some x else cfg.block c u := by
  let a : Activation := ⟨c, 0, 0, [], []⟩
  have hold := isBlockOf_of_lookup hj
  have hf : x.valid = (a.cache.cacheContents j).valid ∧ x.tag = (a.cache.cacheContents j).tag :=
    ⟨hx.1.trans hold.2.1.symm, hx.2.trans hold.2.2.symm⟩
  have ha : cfg.WellFormed a.cache := hc
  have hlines := (ha.block_modify hj (f := fun _ => x) hf).2.2
  have hcongr : cfg.block c' = cfg.block (a.modifyBlock j fun _ => x).cache :=
    block_of_cacheContents hcontents
  calc cfg.block c' u = (cfg.lines (a.modifyBlock j fun _ => x)).block u := congrFun hcongr u
    _ = if u = tag then some x else cfg.block c u := by
      rw [hlines, Lines.block_setBlock]
      rfl

/-- The blocks after the one of a tag has been erased. -/
lemma WellFormed.block_remove (hc : cfg.WellFormed c) (hj : cfg.lookup c tag = some j)
    (hcontents : c'.cacheContents = Function.update c.cacheContents j .new) (u : AddrTag) :
    cfg.block c' u = if u = tag then none else cfg.block c u := by
  let a : Activation := ⟨c, 0, 0, [], []⟩
  have ha : cfg.WellFormed a.cache := hc
  have hlines := (ha.block_erase hj).2
  have hcongr : cfg.block c' = cfg.block (a.modifyBlock j fun _ => .new).cache :=
    block_of_cacheContents hcontents
  calc cfg.block c' u = (cfg.lines (a.modifyBlock j fun _ => .new)).block u := congrFun hcongr u
    _ = if u = tag then none else cfg.block c u := by
      rw [hlines, Lines.block_setBlock]
      rfl

/-- A block, the requests that wait for it and the exception change together. -/
lemma Queues.replace (hq : cfg.Queues fresh opened c) (hc' : cfg.WellFormed c')
    (hfresh : fresh = none ∨ fresh = some tag) {opened' : Option ℕ}
    (hopened : ∀ k, k ≠ j → some k ≠ opened' → some k ≠ opened)
    (hj : cfg.lookup c tag = some j) {x : BlockState} (hx : x.valid = true ∧ x.tag = tag)
    {l : List BlockWaiter}
    (hcontents : c'.cacheContents = Function.update c.cacheContents j x)
    (hblock : c'.waitingOnBlockUnlock = Function.update c.waitingOnBlockUnlock tag l)
    (hset : c'.waitingOnSetUnlock = c.waitingOnSetUnlock)
    (hlocked : x.locked = true ↔ l ≠ []) (hinvalid : x.state = .invalid → x.locked = true)
    (hopen : some j ≠ opened' → (some j ≠ opened → (c.cacheContents j).locked = true) →
      x.locked = true)
    (hfiled : ∀ w ∈ l, cfg.tagOf w.request = tag) : cfg.Queues none opened' c' := by
  have hreplace := hq.wellFormed.block_replace hj hx hcontents
  refine ⟨hc', fun u y hy => ?_, fun u hu => ?_, fun u y hy hstate _ => ?_, fun i hi k hk => ?_,
    fun u w hw => ?_, ?_⟩
  · rw [hreplace] at hy
    rw [hblock]
    by_cases hu : u = tag
    · rw [if_pos hu] at hy
      cases hy
      rw [hu, Function.update_self]
      exact hlocked
    · rw [if_neg hu] at hy
      rw [Function.update_of_ne hu]
      exact hq.locked u y hy
  · rw [hreplace]
    rw [hblock] at hu
    by_cases hut : u = tag
    · rw [if_pos hut]
      exact Option.some_ne_none x
    · rw [Function.update_of_ne hut] at hu
      rw [if_neg hut]
      exact hq.held u hu
  · rw [hreplace] at hy
    by_cases hu : u = tag
    · rw [if_pos hu] at hy
      cases hy
      exact hinvalid hstate
    · rw [if_neg hu] at hy
      refine hq.invalid u y hy hstate ?_
      rcases hfresh with rfl | rfl
      · exact Option.some_ne_none u
      · exact fun h => hu (Option.some.inj h)
  · rw [hset] at hi
    rw [hcontents]
    obtain ⟨hvalid, hold⟩ := hq.full i hi k hk
    by_cases hkj : k = j
    · subst hkj
      rw [Function.update_self]
      exact ⟨hx.1, fun h => hopen h hold⟩
    · rw [Function.update_of_ne hkj]
      exact ⟨hvalid, fun h => hold (hopened k hkj h)⟩
  · rw [hblock] at hw
    by_cases hu : u = tag
    · rw [hu, Function.update_self] at hw
      rw [hu]
      exact hfiled w hw
    · rw [Function.update_of_ne hu] at hw
      exact hq.filedBlock u w hw
  · rw [hset]
    exact hq.filedSet

/-- A block for which no request waits is erased. -/
lemma Queues.erase (hq : cfg.Queues none none c) (hc' : cfg.WellFormed c')
    (hj : cfg.lookup c tag = some j) (hnone : c.waitingOnBlockUnlock tag = [])
    (hcontents : c'.cacheContents = Function.update c.cacheContents j .new)
    (hblock : c'.waitingOnBlockUnlock = c.waitingOnBlockUnlock)
    (hset : c'.waitingOnSetUnlock = c.waitingOnSetUnlock) : cfg.Queues none none c' := by
  have herase := hq.wellFormed.block_remove hj hcontents
  refine ⟨hc', fun u y hy => ?_, fun u hu => ?_, fun u y hy => ?_, fun i hi k hk => ?_, ?_, ?_⟩
  · rw [herase] at hy
    rw [hblock]
    split at hy
    · cases hy
    · exact hq.locked u y hy
  · rw [hblock] at hu
    rw [herase, if_neg ?_]
    · exact hq.held u hu
    · rintro rfl
      exact hu hnone
  · rw [herase] at hy
    split at hy
    · cases hy
    · exact hq.invalid u y hy
  · rw [hset] at hi
    obtain ⟨hvalid, hlocked⟩ := hq.full i hi k hk
    have hkj : k ≠ j := by
      -- a block of a set for which requests wait is locked, so requests wait for it
      rintro rfl
      exact (hq.locked tag _ (block_of_lookup hj)).1 (hlocked (Option.some_ne_none k)) hnone
    rw [hcontents, Function.update_of_ne hkj]
    exact ⟨hvalid, hlocked⟩
  · rw [hblock]
    exact hq.filedBlock
  · rw [hset]
    exact hq.filedSet

/-- The other tables do not matter. -/
lemma Queues.tables (hq : cfg.Queues fresh opened c) (hc' : cfg.WellFormed c')
    (hcontents : c'.cacheContents = c.cacheContents)
    (hblock : c'.waitingOnBlockUnlock = c.waitingOnBlockUnlock)
    (hset : c'.waitingOnSetUnlock = c.waitingOnSetUnlock) : cfg.Queues fresh opened c' := by
  have hsame : cfg.block c' = cfg.block c := block_of_cacheContents hcontents
  refine ⟨hc', ?_, ?_, ?_, ?_, ?_, ?_⟩
  · rw [hsame, hblock]
    exact hq.locked
  · rw [hsame, hblock]
    exact hq.held
  · rw [hsame]
    exact hq.invalid
  · rw [hset, hcontents]
    exact hq.full
  · rw [hblock]
    exact hq.filedBlock
  · rw [hset]
    exact hq.filedSet

/-- A block that is not locked and not in use becomes the block of a tag that had none. -/
lemma Queues.place (hq : cfg.Queues none none c) (hc' : cfg.WellFormed c')
    (h : Places cfg j tag c c')
    (hfree : (c.cacheContents j).valid = true → (c.cacheContents j).locked = false)
    (hlocked : (c'.cacheContents j).locked = false)
    (hblock : c'.waitingOnBlockUnlock = c.waitingOnBlockUnlock)
    (hset : c'.waitingOnSetUnlock = c.waitingOnSetUnlock) : cfg.Queues (some tag) none c' := by
  obtain ⟨hother, hdropped, hplaced⟩ := hq.wellFormed.block_place hc' h
  have habsent : cfg.block c tag = none := block_of_lookup_none h.absent
  -- every block but the new one was there before
  have hold : ∀ u y, u ≠ tag → cfg.block c' u = some y → cfg.block c u = some y := by
    intro u y hu hy
    by_cases hk : cfg.lookup c u = some j
    · rw [hdropped u hk] at hy
      cases hy
    · rwa [hother u hk hu] at hy
  refine ⟨hc', fun u y hy => ?_, fun u hu => ?_, fun u y hy hstate hne => ?_, fun i hi k hk => ?_,
    ?_, ?_⟩
  · rw [hblock]
    by_cases hu : u = tag
    · subst hu
      rw [hplaced] at hy
      cases hy
      rw [hlocked]
      refine iff_of_false Bool.false_ne_true fun hwaits => ?_
      exact hq.held u hwaits habsent
    · exact hq.locked u y (hold u y hu hy)
  · rw [hblock] at hu
    have hheld := hq.held u hu
    have hut : u ≠ tag := by
      rintro rfl
      exact hheld habsent
    have hk : cfg.lookup c u ≠ some j := by
      intro hk
      have hvalid := (isBlockOf_of_lookup hk).2.1
      have hlock := (hq.locked u _ (block_of_lookup hk)).2 hu
      rw [hfree hvalid] at hlock
      cases hlock
    rw [hother u hk hut]
    exact hheld
  · have hu : u ≠ tag := fun hu => hne (congrArg some hu)
    exact hq.invalid u y (hold u y hu hy) hstate (Option.some_ne_none u)
  · rw [hset] at hi
    obtain ⟨hvalid, hlock⟩ := hq.full i hi k hk
    have hkj : k ≠ j := by
      rintro rfl
      have := hlock (Option.some_ne_none k)
      rw [hfree hvalid] at this
      cases this
    rw [h.others k hkj]
    exact ⟨hvalid, hlock⟩
  · rw [hblock]
    exact hq.filedBlock
  · rw [hset]
    exact hq.filedSet

/-! ## Performing a request -/

/-- The block at `j` is now `x` and the queue of its tag is `l`: the request `w` has been answered
or waits in the queue of a locked block. -/
structure Performed (cfg : CacheConfig) (w : BlockWaiter) (a b : Activation) (j : ℕ)
    (x : BlockState) (l : List BlockWaiter) : Prop where
  lookup : cfg.lookup a.cache (cfg.tagOf w.request) = some j
  kept : x.valid = (a.cache.cacheContents j).valid ∧ x.tag = (a.cache.cacheContents j).tag
  contents : b.cache.cacheContents = Function.update a.cache.cacheContents j x
  block : b.cache.waitingOnBlockUnlock =
    Function.update a.cache.waitingOnBlockUnlock (cfg.tagOf w.request) l
  set : b.cache.waitingOnSetUnlock = a.cache.waitingOnSetUnlock
  outcome : (l = a.cache.waitingOnBlockUnlock (cfg.tagOf w.request) ∧
      x.locked = (a.cache.cacheContents j).locked ∧ x.state ≠ .invalid ∧
      ∃ res, res.request = w.request ∧
        b.sent.filterMap Sent.localAnswer = a.sent.filterMap Sent.localAnswer ++ [res]) ∨
    l = a.cache.waitingOnBlockUnlock (cfg.tagOf w.request) ++ [w] ∧ x.locked = true ∧
      b.sent.filterMap Sent.localAnswer = a.sent.filterMap Sent.localAnswer

/-- After a miss the block is locked. -/
lemma forwardMiss_eq_ok {requestingExclusive : Bool} (hj : cfg.lookup a.cache tag = some j)
    (h : cfg.forwardMiss tag (a.cache.cacheContents j) requestingExclusive a = .ok b) :
    b.localTraffic = a.localTraffic ∧ b.currentTick = a.currentTick ∧
      b.cache.cacheContents = Function.update a.cache.cacheContents j
        { a.cache.cacheContents j with locked := true } := by
  refine ⟨Activation.localTraffic_eq (keeps_forwardMiss b h), ?_⟩
  rw [forwardMiss] at h
  split at h
  · rename_i hlocked
    cases h
    have hsame : { a.cache.cacheContents j with locked := true } = a.cache.cacheContents j := by
      rw [← hlocked]
    rw [hsame]
    exact ⟨rfl, (Function.update_eq_self j _).symm⟩
  · obtain ⟨d, hd, hret⟩ := bind_eq_ok.1 h
    cases hret
    rw [lockBlock, hj] at hd
    obtain ⟨-, hd⟩ := check_bind_eq_ok.1 hd
    obtain ⟨-, hd⟩ := check_bind_eq_ok.1 hd
    obtain ⟨-, hd⟩ := check_bind_eq_ok.1 hd
    cases hd
    exact ⟨rfl, rfl⟩

/-- The use of a block is noted after it has changed. -/
lemma cacheContents_touch {x : BlockState} {f : BlockState → BlockState}
    (h : b.cache.cacheContents = Function.update a.cache.cacheContents j x) :
    (b.modifyBlock j f).cache.cacheContents = Function.update a.cache.cacheContents j (f x) := by
  rw [Activation.modifyBlock]
  dsimp only
  rw [h, Function.update_self, Function.update_idem]

/-- A request that misses waits. -/
lemma performed_miss {w : BlockWaiter} {d : Activation} {requestingExclusive : Bool}
    {f : BlockState → BlockState}
    (hf : ∀ x, (f x).valid = x.valid ∧ (f x).tag = x.tag ∧ (f x).locked = x.locked)
    (hj : cfg.lookup a.cache (cfg.tagOf w.request) = some j)
    (hd : cfg.forwardMiss (cfg.tagOf w.request) (a.cache.cacheContents j) requestingExclusive a =
      .ok d) : ∃ x l, cfg.Performed w a
        ((d.waitOnBlockUnlock (cfg.tagOf w.request) w).modifyBlock j f) j x l := by
  obtain ⟨htraffic, -, hcontents⟩ := forwardMiss_eq_ok hj hd
  obtain ⟨hblock, hrest⟩ := Prod.mk.inj htraffic
  obtain ⟨hset, hsent⟩ := Prod.mk.inj hrest
  obtain ⟨hfvalid, hftag, hflocked⟩ := hf { a.cache.cacheContents j with locked := true }
  refine ⟨_, a.cache.waitingOnBlockUnlock (cfg.tagOf w.request) ++ [w], hj,
    ⟨hfvalid, hftag⟩, cacheContents_touch hcontents, ?_, hset, ?_⟩
  · rw [← hblock]
    rfl
  · exact .inr ⟨rfl, hflocked, hsent⟩

lemma performed_performRead {m : ReadMsg} (h : cfg.performRead m a = .ok b) :
    ∃ j x l, cfg.Performed (.performRead m) a b j x l := by
  rw [performRead] at h
  dsimp only at h
  split at h
  · cases h
  · rename_i j hj
    have hj : cfg.lookup a.cache (cfg.tagOf (BlockWaiter.performRead m).request) = some j := hj
    split at h
    · obtain ⟨d, hd, hret⟩ := bind_eq_ok.1 h
      cases hret
      obtain ⟨x, l, hperformed⟩ := performed_miss (w := .performRead m)
        (f := fun x => { x with lastRead := (d.waitOnBlockUnlock (cfg.calcTag m.addr)
          (.performRead m)).currentTick }) (fun x => ⟨rfl, rfl, rfl⟩) hj hd
      exact ⟨j, x, l, hperformed⟩
    · rename_i hhit
      cases h
      refine ⟨j, { a.cache.cacheContents j with lastRead := a.currentTick }, _, hj, ⟨rfl, rfl⟩, rfl,
        (Function.update_eq_self _ _).symm, rfl,
        .inl ⟨rfl, rfl, fun hinvalid => hhit (.inl hinvalid), _, ?_, List.filterMap_append⟩⟩
      rfl

lemma performed_performWrite {m : WriteMsg} (h : cfg.performWrite m a = .ok b) :
    ∃ j x l, cfg.Performed (.performWrite m) a b j x l := by
  rw [performWrite] at h
  dsimp only at h
  split at h
  · cases h
  · rename_i j hj
    have hj : cfg.lookup a.cache (cfg.tagOf (BlockWaiter.performWrite m).request) = some j := hj
    split at h
    · obtain ⟨d, hd, hret⟩ := bind_eq_ok.1 h
      cases hret
      obtain ⟨x, l, hperformed⟩ := performed_miss (w := .performWrite m)
        (f := fun x => { x with lastWrite := (d.waitOnBlockUnlock (cfg.calcTag m.addr)
          (.performWrite m)).currentTick }) (fun x => ⟨rfl, rfl, rfl⟩) hj hd
      exact ⟨j, x, l, hperformed⟩
    · cases h
      refine ⟨j, { a.cache.cacheContents j with state := .modified, lastWrite := a.currentTick }, _,
        hj, ⟨rfl, rfl⟩, ?_, (Function.update_eq_self _ _).symm, rfl,
        .inl ⟨rfl, rfl, BIPMOESIState.noConfusion, _, ?_, List.filterMap_append⟩⟩
      · exact cacheContents_touch (x := { a.cache.cacheContents j with state := .modified }) rfl
      · rfl

lemma Performed.queues {w : BlockWaiter} {x : BlockState} {l : List BlockWaiter}
    (hw : cfg.Performed w a b j x l) (hq : cfg.Queues fresh opened a.cache)
    (hb : cfg.WellFormed b.cache) (hfresh : fresh = none ∨ fresh = some (cfg.tagOf w.request)) :
    cfg.Queues none opened b.cache := by
  have hold := isBlockOf_of_lookup hw.lookup
  have hblock := block_of_lookup hw.lookup
  refine hq.replace hb hfresh (fun _ _ h => h) hw.lookup
    ⟨hw.kept.1.trans hold.2.1, hw.kept.2.trans hold.2.2⟩ hw.contents hw.block hw.set ?_ ?_ ?_ ?_
  · rcases hw.outcome with ⟨hl, hlocked, -⟩ | ⟨hl, hlocked, -⟩
    · rw [hl, hlocked]
      exact hq.locked _ _ hblock
    · rw [hl]
      refine iff_of_true hlocked ?_
      exact List.append_ne_nil_of_right_ne_nil _ (List.cons_ne_nil w [])
  · rcases hw.outcome with ⟨-, -, hstate, -⟩ | ⟨-, hlocked, -⟩
    · exact fun hinvalid => absurd hinvalid hstate
    · exact fun _ => hlocked
  · intro hne hlock
    rcases hw.outcome with ⟨-, hlocked, -⟩ | ⟨-, hlocked, -⟩
    · rw [hlocked]
      exact hlock hne
    · exact hlocked
  · rcases hw.outcome with ⟨hl, -⟩ | ⟨hl, -⟩
    · rw [hl]
      exact hq.filedBlock _
    · rw [hl]
      intro w' hw'
      rcases List.mem_append.1 hw' with hold | hnew
      · exact hq.filedBlock _ w' hold
      · rw [List.mem_singleton.1 hnew]

lemma Performed.load {w : BlockWaiter} {x : BlockState} {l : List BlockWaiter}
    (hw : cfg.Performed w a b j x l) (r : Request) :
    cfg.load r b = cfg.load r a + [w.request].count r := by
  have hblock : b.cache.waitingOnBlockUnlock (cfg.tagOf r) = if cfg.tagOf r = cfg.tagOf w.request
      then l else a.cache.waitingOnBlockUnlock (cfg.tagOf r) := by
    rw [hw.block]
    by_cases h : cfg.tagOf r = cfg.tagOf w.request
    · rw [if_pos h, h, Function.update_self]
    · rw [if_neg h, Function.update_of_ne h]
  rw [CacheConfig.load, CacheConfig.load, hblock, hw.set]
  rcases hw.outcome with ⟨rfl, -, -, res, hres, hsent⟩ | ⟨rfl, -, hsent⟩
  · rw [hsent, List.map_append, List.count_append, List.map_singleton, hres]
    split
    · rename_i h
      rw [h]
      omega
    · omega
  · rw [hsent]
    split
    · rename_i h
      rw [h, List.map_append, List.count_append, List.map_singleton]
      omega
    · rename_i h
      -- a request with another tag is not the one that waits now
      have hne : [w.request].count r = 0 := by
        refine List.count_eq_zero.2 fun hmem => h ?_
        rw [List.mem_singleton.1 hmem]
      omega

variable (cfg) in
/-- A computation brings the queues in order and serves the requests of a list. -/
def Serves (fresh : Option AddrTag) (opened : Option ℕ) (l : List Request) (a : Activation)
    (x : Except Fault Activation) : Prop :=
  cfg.Queues fresh opened a.cache →
    Ensures (fun b => cfg.Queues none opened b.cache ∧
      ∀ r, cfg.load r b = cfg.load r a + l.count r) x

lemma serves_performRead (m : ReadMsg) (hfresh : fresh = none ∨ fresh = some (cfg.calcTag m.addr)) :
    cfg.Serves fresh opened [.read m.msgID m.addr] a (cfg.performRead m a) := by
  intro hq b hb
  obtain ⟨j, x, l, hw⟩ := performed_performRead hb
  have hmoves : cfg.Moves .all a (cfg.performRead m a) := moves_performRead trivial m
  have hwf := (hmoves b hb hq.wellFormed).1
  exact ⟨hw.queues hq hwf hfresh, hw.load⟩

lemma serves_performWrite (m : WriteMsg)
    (hfresh : fresh = none ∨ fresh = some (cfg.calcTag m.addr)) :
    cfg.Serves fresh opened [.write m.msgID m.addr] a (cfg.performWrite m a) := by
  intro hq b hb
  obtain ⟨j, x, l, hw⟩ := performed_performWrite hb
  have hmoves : cfg.Moves .all a (cfg.performWrite m a) := moves_performWrite m
  have hwf := (hmoves b hb hq.wellFormed).1
  exact ⟨hw.queues hq hwf hfresh, hw.load⟩

lemma Serves.bind {l l' : List Request} {x : Except Fault Activation}
    {g : Activation → Except Fault Activation} (hx : cfg.Serves fresh opened l a x)
    (hg : ∀ b, cfg.Serves none opened l' b (g b)) :
    cfg.Serves fresh opened (l ++ l') a (x >>= g) := by
  intro hq
  refine Ensures.bind (hx hq) fun b hb => (hg b hb.1).mono fun d hd => ⟨hd.1, fun r => ?_⟩
  rw [hd.2 r, hb.2 r, List.count_append, Nat.add_assoc]

/-! ## Allocating a block -/

/-- When the policy evicts no block of a set, it may evict none. -/
lemma not_isEvictable_of_evict {set : ℕ} (h : cfg.evict set a = .ok (none, b)) {k : ℕ}
    (hk : k ∈ cfg.set set) : (a.cache.cacheContents k).isEvictable = false := by
  rw [evict] at h
  obtain ⟨-, h⟩ := check_bind_eq_ok.1 h
  dsimp only at h
  have hcount : ((cfg.set set).map a.cache.cacheContents).countP BlockState.isEvictable = 0 := by
    split at h
    · obtain ⟨i, hi, hret⟩ := bind_eq_ok.1 h
      cases hret
      rw [lruEvict] at hi
      split at hi
      · assumption
      · obtain ⟨hne, hi⟩ := check_bind_eq_ok.1 hi
        exact absurd (Except.ok.inj hi) hne
    · obtain ⟨i, hi, hret⟩ := bind_eq_ok.1 h
      cases hret
      rw [randomEvict] at hi
      split at hi
      · assumption
      · dsimp only at hi
        split at hi <;> cases hi
  rw [List.countP_eq_zero] at hcount
  exact Bool.eq_false_iff.2 (hcount _ (List.mem_map_of_mem hk))

lemma prepareFreshBlock_eq_ok {set i : ℕ} (h : cfg.prepareFreshBlock set i tag a = .ok b) :
    ∃ x, b.cache.cacheContents = Function.update a.cache.cacheContents (cfg.blockIndex set i) x ∧
      x.locked = false ∧ (a.cache.cacheContents (cfg.blockIndex set i)).locked = false ∧
      (x.valid = true ∧ x.tag = tag ∨ a.cache.pendingEviction tag = some x) := by
  rw [prepareFreshBlock] at h
  obtain ⟨hfree, h⟩ := check_bind_eq_ok.1 h
  split at h
  · cases h
    exact ⟨_, rfl, hfree, hfree, .inl ⟨rfl, rfl⟩⟩
  · rename_i x hx
    obtain ⟨-, h⟩ := check_bind_eq_ok.1 h
    obtain ⟨hlocked, h⟩ := check_bind_eq_ok.1 h
    cases h
    exact ⟨x, rfl, hlocked, hfree, .inr hx⟩

/-- A block is allocated, or all blocks of the set are locked. -/
lemma queues_allocateBlock (hq : cfg.Queues none none a.cache)
    (habsent : cfg.lookup a.cache tag = none) :
    Ensures (fun r => (r.1 = true ∧ cfg.Queues (some tag) none r.2.cache ∨
        r.1 = false ∧ cfg.Queues none none r.2.cache ∧
          ∀ k ∈ cfg.set (cfg.calcSetFromTag tag), (r.2.cache.cacheContents k).valid = true ∧
            (r.2.cache.cacheContents k).locked = true) ∧
      r.2.localTraffic = a.localTraffic) (cfg.allocateBlock tag a) := by
  rintro ⟨result, b⟩ h
  have ha := hq.wellFormed
  have hb : cfg.WellFormed b.cache := (moves_allocateBlock Allowance.all habsent _ h ha).1
  have htraffic : b.localTraffic = a.localTraffic :=
    Activation.localTraffic_eq (traffic_allocateBlock _ h)
  obtain ⟨hblock, hrest⟩ := Prod.mk.inj htraffic
  obtain ⟨hset, -⟩ := Prod.mk.inj hrest
  refine ⟨?_, htraffic⟩
  -- a block that has been prepared for the tag
  have hplace : ∀ d i, i < cfg.associativity →
      d.cache.cacheContents = a.cache.cacheContents →
      (∀ x, d.cache.pendingEviction tag = some x → a.cache.pendingEviction tag = some x) →
      cfg.prepareFreshBlock (cfg.calcSetFromTag tag) i tag d = .ok b →
      cfg.Queues (some tag) none b.cache := by
    intro d i hi hcontents hpending hd
    obtain ⟨x, hx, hlocked, hfree, hentry⟩ := prepareFreshBlock_eq_ok hd
    rw [hcontents] at hx hfree
    have hself : b.cache.cacheContents (cfg.blockIndex (cfg.calcSetFromTag tag) i) = x := by
      rw [hx, Function.update_self]
    have hentry : x.valid = true ∧ x.tag = tag := by
      rcases hentry with hentry | hentry
      · exact hentry
      · obtain ⟨htag, hvalid, -⟩ := ha.pending tag x (hpending x hentry)
        exact ⟨hvalid, htag⟩
    have hplaces : Places cfg (cfg.blockIndex (cfg.calcSetFromTag tag) i) tag a.cache b.cache :=
      { absent := habsent
        mem := mem_set_iff.2 ⟨i, hi, rfl⟩
        valid := by rw [hself, hentry.1]
        tag_eq := by rw [hself, hentry.2]
        others := fun k hk => by rw [hx, Function.update_of_ne hk] }
    refine hq.place hb hplaces (fun _ => hfree) ?_ hblock hset
    rw [hself, hlocked]
  rw [allocateBlock] at h
  dsimp only at h
  split at h
  · rename_i i hfind
    obtain ⟨d, hd, hret⟩ := bind_eq_ok.1 h
    cases hret
    have hi : i < cfg.associativity := List.mem_range.1 (List.mem_of_find?_eq_some hfind)
    exact .inl ⟨rfl, hplace a i hi rfl (fun x hx => hx) hd⟩
  · rename_i hfind
    obtain ⟨⟨eviction, d⟩, hevict, h⟩ := bind_eq_ok.1 h
    obtain ⟨hcache, -, hfound⟩ := evict_eq_ok hevict
    dsimp only at h
    split at h
    · cases h
      have hall : ∀ k ∈ cfg.set (cfg.calcSetFromTag tag),
          (a.cache.cacheContents k).valid = true ∧ (a.cache.cacheContents k).locked = true := by
        intro k hk
        obtain ⟨i, hi, rfl⟩ := mem_set_iff.1 hk
        have hvalid := List.find?_eq_none.1 hfind i (List.mem_range.2 hi)
        rw [Bool.not_eq_true', Bool.not_eq_false] at hvalid
        refine ⟨hvalid, ?_⟩
        -- what the policy may not evict is invalid or locked, and invalid blocks are locked
        by_contra hunlocked
        have hevictable := not_isEvictable_of_evict hevict hk
        have hlookup : cfg.lookup a.cache
            (a.cache.cacheContents (cfg.blockIndex (cfg.calcSetFromTag tag) i)).tag =
              some (cfg.blockIndex (cfg.calcSetFromTag tag) i) := by
          refine ha.lookup_eq_some.2 ⟨?_, hvalid, rfl⟩
          rw [ha.set _ _ hk hvalid]
          exact hk
        have hstate : (a.cache.cacheContents (cfg.blockIndex (cfg.calcSetFromTag tag) i)).state =
            .invalid := by
          by_contra hstate
          rw [BlockState.isEvictable, hvalid, Bool.eq_false_iff.2 hunlocked] at hevictable
          simp [hstate] at hevictable
        exact hunlocked (hq.invalid _ _ (block_of_lookup hlookup) hstate (Option.some_ne_none _))
      rw [hcache]
      exact .inr ⟨rfl, hq, hall⟩
    · rename_i i
      obtain ⟨hi, hevictable⟩ := hfound i rfl
      have hlookup := (lookup_of_isEvictable ha hi hevictable).1
      split at h
      · obtain ⟨e, he, h⟩ := bind_eq_ok.1 h
        obtain ⟨f, hf, hret⟩ := bind_eq_ok.1 h
        cases hret
        rw [← hcache] at hlookup
        obtain ⟨m, delay, -, rfl⟩ := evictBlock_eq_ok hlookup he
        refine .inl ⟨rfl, hplace _ i hi ?_ ?_ hf⟩
        · exact congrArg BIPMOESICache.cacheContents hcache
        · intro x hx
          rw [← hcache]
          exact hx
      · obtain ⟨-, h⟩ := check_bind_eq_ok.1 h
        obtain ⟨f, hf, hret⟩ := bind_eq_ok.1 h
        cases hret
        refine .inl ⟨rfl, hplace _ i hi ?_ ?_ hf⟩
        · have hcontents : d.cache.cacheContents = a.cache.cacheContents := congrArg _ hcache
          split <;> exact hcontents
        · -- the evicted block has another tag
          have hne : tag ≠ (d.cache.cacheContents
              (cfg.blockIndex (cfg.calcSetFromTag tag) i)).tag := by
            rw [hcache]
            intro htag
            rw [← htag, habsent] at hlookup
            cases hlookup
          intro x hx
          have hx : Function.update d.cache.pendingEviction
              (d.cache.cacheContents (cfg.blockIndex (cfg.calcSetFromTag tag) i)).tag
              (some (d.cache.cacheContents (cfg.blockIndex (cfg.calcSetFromTag tag) i))) tag =
                some x := by
            split at hx <;> exact hx
          rw [Function.update_of_ne hne, hcache] at hx
          exact hx

/-! ## Local requests -/

/-- A request joins the queue of a set all of whose blocks are locked. -/
lemma serves_waitOnSetUnlock (hq : cfg.Queues none none a.cache) {w : SetWaiter}
    (hlocked : ∀ k ∈ cfg.set (cfg.setOf w.request), (a.cache.cacheContents k).valid = true ∧
      (a.cache.cacheContents k).locked = true) :
    cfg.Queues none none (a.waitOnSetUnlock (cfg.setOf w.request) w).cache ∧
      ∀ r, cfg.load r (a.waitOnSetUnlock (cfg.setOf w.request) w) =
        cfg.load r a + [w.request].count r := by
  have hqueue : ∀ i, (a.waitOnSetUnlock (cfg.setOf w.request) w).cache.waitingOnSetUnlock i =
      if i = cfg.setOf w.request then a.cache.waitingOnSetUnlock i ++ [w]
      else a.cache.waitingOnSetUnlock i := by
    intro i
    by_cases h : i = cfg.setOf w.request
    · rw [if_pos h, h]
      exact Function.update_self _ _ _
    · rw [if_neg h]
      exact Function.update_of_ne h _ _
  refine ⟨⟨hq.wellFormed.tables rfl rfl, hq.locked, hq.held, hq.invalid, ?_, hq.filedBlock, ?_⟩, ?_⟩
  · intro i hi k hk
    rw [hqueue] at hi
    by_cases h : i = cfg.setOf w.request
    · subst h
      exact ⟨(hlocked k hk).1, fun _ => (hlocked k hk).2⟩
    · rw [if_neg h] at hi
      exact hq.full i hi k hk
  · intro i w' hw'
    rw [hqueue] at hw'
    by_cases h : i = cfg.setOf w.request
    · rw [if_pos h] at hw'
      rcases List.mem_append.1 hw' with hold | hnew
      · exact hq.filedSet i w' hold
      · rw [List.mem_singleton.1 hnew, h]
    · rw [if_neg h] at hw'
      exact hq.filedSet i w' hw'
  · intro r
    have hsame : (a.waitOnSetUnlock (cfg.setOf w.request) w).cache.waitingOnBlockUnlock =
        a.cache.waitingOnBlockUnlock := rfl
    have hsent : (a.waitOnSetUnlock (cfg.setOf w.request) w).sent = a.sent := rfl
    rw [CacheConfig.load, CacheConfig.load, hqueue, hsame, hsent]
    split
    · rw [List.map_append, List.count_append, List.map_singleton]
      omega
    · rename_i h
      have hne : [w.request].count r = 0 := by
        refine List.count_eq_zero.2 fun hmem => h ?_
        rw [List.mem_singleton.1 hmem]
      omega

lemma serves_onLocalRead (m : ReadMsg) :
    cfg.Serves none none [.read m.msgID m.addr] a (cfg.onLocalRead m a) := by
  intro hq
  rw [onLocalRead]
  dsimp only
  split
  · exact serves_performRead m (.inl rfl) hq
  · rename_i hnone
    refine Ensures.bind (queues_allocateBlock hq hnone) fun r hr => ?_
    obtain ⟨hcases, htraffic⟩ := hr
    rcases hcases with ⟨hresult, hqr⟩ | ⟨hresult, hqr, hlocked⟩
    · rw [if_pos hresult]
      refine (serves_performRead m (.inr rfl) hqr).mono fun b hb => ⟨hb.1, fun r' => ?_⟩
      rw [hb.2 r', load_congr htraffic]
    · rw [if_neg (by rw [hresult]; exact Bool.false_ne_true)]
      obtain ⟨hqueues, hload⟩ := serves_waitOnSetUnlock (w := .read m) hqr hlocked
      refine ensures_pure.2 ⟨hqueues, fun r' => ?_⟩
      rw [← load_congr htraffic]
      exact hload r'

lemma serves_onLocalWrite (m : WriteMsg) :
    cfg.Serves none none [.write m.msgID m.addr] a (cfg.onLocalWrite m a) := by
  intro hq
  rw [onLocalWrite]
  dsimp only
  split
  · exact serves_performWrite m (.inl rfl) hq
  · rename_i hnone
    refine Ensures.bind (queues_allocateBlock hq hnone) fun r hr => ?_
    obtain ⟨hcases, htraffic⟩ := hr
    rcases hcases with ⟨hresult, hqr⟩ | ⟨hresult, hqr, hlocked⟩
    · rw [if_pos hresult]
      refine (serves_performWrite m (.inr rfl) hqr).mono fun b hb => ⟨hb.1, fun r' => ?_⟩
      rw [hb.2 r', load_congr htraffic]
    · rw [if_neg (by rw [hresult]; exact Bool.false_ne_true)]
      obtain ⟨hqueues, hload⟩ := serves_waitOnSetUnlock (w := .write m) hqr hlocked
      refine ensures_pure.2 ⟨hqueues, fun r' => ?_⟩
      rw [← load_congr htraffic]
      exact hload r'

/-! ## Unlocking a block -/

lemma serves_performBlockWaiters (l : List BlockWaiter) :
    cfg.Serves none opened (l.map BlockWaiter.request) a (cfg.performBlockWaiters l a) := by
  induction l generalizing a with
  | nil => exact fun hq => ensures_ok.2 ⟨hq, fun r => (Nat.add_zero _).symm⟩
  | cons w rest ih =>
    cases w with
    | performRead m => exact (serves_performRead m (.inl rfl)).bind fun b => ih
    | performWrite m => exact (serves_performWrite m (.inl rfl)).bind fun b => ih

lemma serves_retrySetWaiters (l : List SetWaiter) :
    cfg.Serves none none (l.map SetWaiter.request) a (cfg.retrySetWaiters l a) := by
  induction l generalizing a with
  | nil => exact fun hq => ensures_ok.2 ⟨hq, fun r => (Nat.add_zero _).symm⟩
  | cons w rest ih =>
    cases w with
    | read m => exact (serves_onLocalRead m).bind fun b => ih
    | write m => exact (serves_onLocalWrite m).bind fun b => ih

/-- The queue of a block is taken: the requests in it are no longer part of the load. -/
lemma load_takeBlock (hq : cfg.Queues fresh opened a.cache)
    (hcache : b.cache.waitingOnBlockUnlock = Function.update a.cache.waitingOnBlockUnlock tag [])
    (hset : b.cache.waitingOnSetUnlock = a.cache.waitingOnSetUnlock) (hsent : b.sent = a.sent)
    (r : Request) : cfg.load r b +
      ((a.cache.waitingOnBlockUnlock tag).map BlockWaiter.request).count r = cfg.load r a := by
  rw [load, load, hcache, hset, hsent]
  by_cases h : cfg.tagOf r = tag
  · rw [h, Function.update_self, List.map_nil, List.count_nil]
    omega
  · rw [Function.update_of_ne h]
    have hne : ((a.cache.waitingOnBlockUnlock tag).map BlockWaiter.request).count r = 0 := by
      refine List.count_eq_zero.2 fun hmem => h ?_
      obtain ⟨w, hw, rfl⟩ := List.mem_map.1 hmem
      exact hq.filedBlock tag w hw
    omega

/-- The queue of a set is taken. -/
lemma load_takeSet (hq : cfg.Queues fresh opened a.cache) (i : ℕ) (r : Request) :
    cfg.load r (a.setWaitingOnSetUnlock i []) +
      ((a.cache.waitingOnSetUnlock i).map SetWaiter.request).count r = cfg.load r a := by
  have hset : (a.setWaitingOnSetUnlock i []).cache.waitingOnSetUnlock =
      Function.update a.cache.waitingOnSetUnlock i [] := rfl
  have hblock : (a.setWaitingOnSetUnlock i []).cache.waitingOnBlockUnlock =
      a.cache.waitingOnBlockUnlock := rfl
  have hsent : (a.setWaitingOnSetUnlock i []).sent = a.sent := rfl
  rw [load, load, hset, hblock, hsent]
  by_cases h : cfg.setOf r = i
  · rw [h, Function.update_self, List.map_nil, List.count_nil]
    omega
  · rw [Function.update_of_ne h]
    have hne : ((a.cache.waitingOnSetUnlock i).map SetWaiter.request).count r = 0 := by
      refine List.count_eq_zero.2 fun hmem => h ?_
      obtain ⟨w, hw, rfl⟩ := List.mem_map.1 hmem
      exact hq.filedSet i w hw
    omega

/-- Taking the queue of the set of an unlocked block ends the exception for this block. -/
lemma Queues.takeSet (hq : cfg.Queues none (some j) a.cache)
    (hj : j ∈ cfg.set (cfg.calcSetFromTag tag)) :
    cfg.Queues none none (a.setWaitingOnSetUnlock (cfg.calcSetFromTag tag) []).cache := by
  have hset : (a.setWaitingOnSetUnlock (cfg.calcSetFromTag tag) []).cache.waitingOnSetUnlock =
      Function.update a.cache.waitingOnSetUnlock (cfg.calcSetFromTag tag) [] := rfl
  refine ⟨hq.wellFormed.tables rfl rfl, hq.locked, hq.held, hq.invalid, ?_, hq.filedBlock, ?_⟩
  · intro i hi k hk
    rw [hset] at hi
    by_cases h : i = cfg.calcSetFromTag tag
    · rw [h, Function.update_self] at hi
      exact absurd rfl hi
    · rw [Function.update_of_ne h] at hi
      obtain ⟨hvalid, hlocked⟩ := hq.full i hi k hk
      refine ⟨hvalid, fun _ => hlocked fun hkj => h ?_⟩
      rw [Option.some.inj hkj] at hk
      exact set_unique hk hj
  · intro i w hw
    rw [hset] at hw
    by_cases h : i = cfg.calcSetFromTag tag
    · rw [h, Function.update_self] at hw
      cases hw
    · rw [Function.update_of_ne h] at hw
      exact hq.filedSet i w hw

/-- A block that is locked needs no exception. -/
lemma Queues.close (hq : cfg.Queues none (some j) c) (hj : (c.cacheContents j).locked = true) :
    cfg.Queues none none c := by
  refine ⟨hq.wellFormed, hq.locked, hq.held, hq.invalid, ?_, hq.filedBlock, hq.filedSet⟩
  intro i hi k hk
  obtain ⟨hvalid, hlocked⟩ := hq.full i hi k hk
  refine ⟨hvalid, fun _ => ?_⟩
  by_cases h : k = j
  · rw [h]
    exact hj
  · exact hlocked fun hkj => h (Option.some.inj hkj)

/-- Unlocking a valid block serves the requests that wait for it and for its set, or lets them
wait again. -/
lemma serves_unlockBlock (hstate : ∀ x, cfg.block a.cache tag = some x → x.state ≠ .invalid) :
    cfg.Serves none none [] a (cfg.unlockBlock tag a) := by
  intro hq b hb
  rw [unlockBlock] at hb
  split at hb
  · cases hb
  · rename_i j hj
    obtain ⟨hvalid, hb⟩ := check_bind_eq_ok.1 hb
    obtain ⟨hlocked, hb⟩ := check_bind_eq_ok.1 hb
    dsimp only at hb
    obtain ⟨hwaiters, hb⟩ := check_bind_eq_ok.1 hb
    obtain ⟨d, hd, hb⟩ := bind_eq_ok.1 hb
    have hblock := isBlockOf_of_lookup hj
    generalize hopen : (a.modifyBlock j fun b => { b with locked := false }).setWaitingOnBlockUnlock
      tag [] = e at hd
    have hwf : cfg.WellFormed e.cache := by
      rw [← hopen]
      exact (hq.wellFormed.block_modify hj (f := fun b => { b with locked := false })
        ⟨rfl, rfl⟩).1.tables rfl rfl
    have hqe : cfg.Queues none (some j) e.cache := by
      refine hq.replace hwf (.inl rfl) (fun k _ _ => Option.some_ne_none k) hj
        (x := { a.cache.cacheContents j with locked := false }) (l := [])
        ⟨hvalid, hblock.2.2⟩ ?_ ?_ ?_ ?_ ?_ ?_ ?_
      · rw [← hopen]
        rfl
      · rw [← hopen]
        rfl
      · rw [← hopen]
        rfl
      · exact iff_of_false Bool.false_ne_true fun h => h rfl
      · have hvalid := hstate _ (block_of_lookup hj)
        exact fun hinvalid => absurd hinvalid hvalid
      · exact fun hne => absurd rfl hne
      · exact fun w hw => absurd hw List.not_mem_nil
    have hload : ∀ r, cfg.load r e +
        ((a.cache.waitingOnBlockUnlock tag).map BlockWaiter.request).count r = cfg.load r a := by
      intro r
      refine load_takeBlock hq ?_ ?_ ?_ r
      all_goals
        rw [← hopen]
        rfl
    -- the requests for the block
    obtain ⟨hqd, hloadd⟩ := serves_performBlockWaiters _ hqe d hd
    split at hb
    · rename_i hagain
      cases hb
      refine ⟨hqd.close hagain, fun r => ?_⟩
      rw [hloadd r, ← hload r]
      rfl
    · -- the requests for its set
      have hqs := hqd.takeSet hblock.1
      obtain ⟨hqb, hloadb⟩ := serves_retrySetWaiters _ hqs b hb
      refine ⟨hqb, fun r => ?_⟩
      have htake := load_takeSet hqd (cfg.calcSetFromTag tag) r
      rw [hloadb r, htake, hloadd r, ← hload r]
      rfl

/-- The level below answers. -/
lemma serves_onRemoteReadResponse (m : ReadResponseMsg) :
    cfg.Serves none none [] a (cfg.onRemoteReadResponse m a) := by
  intro hq b hb
  rw [onRemoteReadResponse] at hb
  -- an answer that is refused changes no queue
  have hrefuse : ∀ d, d.cache = a.cache → d.localTraffic = a.localTraffic →
      cfg.Queues none none d.cache ∧ ∀ r, cfg.load r d = cfg.load r a + [].count r := by
    intro d hcache htraffic
    rw [hcache]
    exact ⟨hq, fun r => load_congr htraffic⟩
  split at hb
  · cases hb
    split
    · exact hrefuse _ rfl rfl
    · exact hrefuse _ rfl (Activation.localTraffic_sendMsg rfl)
  · rename_i j hj
    split at hb
    · cases hb
      split
      · exact hrefuse _ rfl rfl
      · exact hrefuse _ rfl (Activation.localTraffic_sendMsg rfl)
    · rename_i hlocked
      have hlocked : (a.cache.cacheContents j).locked = true := Bool.not_eq_false _ ▸ hlocked
      have hblock := isBlockOf_of_lookup hj
      generalize hnew : (a.modifyBlock j fun b =>
        { b with state := if m.exclusiveOwnership then .exclusive else .shared }) = d at hb
      obtain ⟨x, hvalid, htag, hlock, hstate, hcontents⟩ : ∃ x : BlockState, x.valid = true ∧
          x.tag = cfg.calcTag m.addr ∧ x.locked = true ∧ x.state ≠ .invalid ∧
          d.cache.cacheContents = Function.update a.cache.cacheContents j x := by
        refine ⟨{ a.cache.cacheContents j with
          state := if m.exclusiveOwnership then .exclusive else .shared }, hblock.2.1, hblock.2.2,
          hlocked, ?_, ?_⟩
        · dsimp only
          split <;> decide
        · rw [← hnew]
          rfl
      have hwf : cfg.WellFormed d.cache := by
        rw [← hnew]
        exact (hq.wellFormed.block_modify hj ⟨rfl, rfl⟩).1
      have hqd : cfg.Queues none none d.cache := by
        refine hq.replace hwf (.inl rfl) (fun _ _ h => h) hj ⟨hvalid, htag⟩ hcontents
          (l := a.cache.waitingOnBlockUnlock (cfg.calcTag m.addr)) ?_ ?_ ?_ ?_ ?_ ?_
        · rw [Function.update_eq_self, ← hnew]
          rfl
        · rw [← hnew]
          rfl
        · refine iff_of_true hlock ?_
          exact (hq.locked _ _ (block_of_lookup hj)).1 hlocked
        · exact fun _ => hlock
        · exact fun _ _ => hlock
        · exact hq.filedBlock _
      have hload : ∀ r, cfg.load r d = cfg.load r a := by
        intro r
        rw [← hnew]
        rfl
      have hstate : ∀ y, cfg.block d.cache (cfg.calcTag m.addr) = some y → y.state ≠ .invalid := by
        intro y hy
        rw [hq.wellFormed.block_replace hj ⟨hvalid, htag⟩ hcontents, if_pos rfl] at hy
        cases hy
        exact hstate
      obtain ⟨hqb, hloadb⟩ := serves_unlockBlock hstate hqd b hb
      refine ⟨hqb, fun r => ?_⟩
      rw [hloadb r, hload r]

end CacheConfig

end Sesc.Cache
