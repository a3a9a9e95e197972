import Sesc.Cache.Lines

/-!
# Every handler is a sequence of moves

Each handler of a cache keeps the cache well-formed and changes it by moves that the handled
message allows.
-/

namespace Sesc.Cache

open Lib Relation

/-! ## Eviction policies -/

/-- The policy found a block that it may evict. -/
def Evicts (blocks : List BlockState) (i : ℕ) : Prop :=
  ∃ b, blocks[i]? = some b ∧ b.isEvictable = true

lemma evicts_of_randomEvict {blocks : List BlockState} {rand i : ℕ}
    (h : randomEvict blocks rand = .ok (some i)) : Evicts blocks i := by
  rw [randomEvict] at h
  split at h
  · cases h
  · dsimp only at h
    split at h
    · rename_i k hk
      cases h
      have hmem := List.mem_of_getElem? hk
      obtain ⟨-, hi⟩ := List.mem_filter.1 hmem
      rcases hb : blocks[i]? with _ | b
      · rw [hb] at hi
        cases hi
      · rw [hb] at hi
        exact ⟨b, hb, hi⟩
    · cases h

/-- The block that the loop finds is the one found before or one of the remaining blocks. -/
lemma lruLoop_eq_some {blocks : List BlockState} {n i : ℕ} {index : Option ℕ}
    {useTime : TickTime} (h : lruLoop blocks n index useTime = some i) :
    index = some i ∨ ∃ k, i = n + k ∧ Evicts blocks k := by
  induction blocks generalizing n index useTime with
  | nil => exact .inl h
  | cons b rest ih =>
    rw [lruLoop] at h
    have hrest : ∀ k, i = n + 1 + k → Evicts rest k → ∃ k, i = n + k ∧ Evicts (b :: rest) k := by
      intro k hik hk
      exact ⟨k + 1, by omega, hk⟩
    split at h
    · rename_i hb
      rcases ih h with hi | ⟨k, hik, hk⟩
      · have hin : n = i := Option.some.inj hi
        exact .inr ⟨0, by omega, b, rfl, hb.1⟩
      · exact .inr (hrest k hik hk)
    · rcases ih h with hi | ⟨k, hik, hk⟩
      · exact .inl hi
      · exact .inr (hrest k hik hk)

lemma evicts_of_lruEvict {blocks : List BlockState} {i : ℕ}
    (h : lruEvict blocks = .ok (some i)) : Evicts blocks i := by
  rw [lruEvict] at h
  split at h
  · cases h
  · obtain ⟨-, hindex⟩ := check_bind_eq_ok.1 h
    have hk : lruLoop blocks 0 none (0xFFFFFFFFFFFFFFFF) = some i := Except.ok.inj hindex
    rcases lruLoop_eq_some hk with hnone | ⟨k', hk', hevicts⟩
    · cases hnone
    · have hi : i = k' := by omega
      rw [hi]
      exact hevicts

namespace CacheConfig

variable {cfg : CacheConfig} {allow : Allowance} {a b : Activation} {tag : AddrTag} {j : ℕ}

/-- The eviction policy finds a block of the set and changes nothing. -/
lemma evict_eq_ok {set : ℕ} {r : Option ℕ} (h : cfg.evict set a = .ok (r, b)) :
    b.cache = a.cache ∧ b.sent = a.sent ∧
      ∀ i, r = some i → i < cfg.associativity ∧
        (a.cache.cacheContents (cfg.blockIndex set i)).isEvictable = true := by
  rw [evict] at h
  obtain ⟨-, h⟩ := check_bind_eq_ok.1 h
  have hfound : ∀ i, Evicts ((cfg.set set).map a.cache.cacheContents) i →
      i < cfg.associativity ∧
        (a.cache.cacheContents (cfg.blockIndex set i)).isEvictable = true := by
    rintro i ⟨x, hx, hevictable⟩
    simp only [CacheConfig.set, List.map_map, List.getElem?_map, Option.map_eq_some_iff,
      List.getElem?_eq_some_iff, List.length_range, List.getElem_range] at hx
    obtain ⟨k, ⟨hlt, rfl⟩, rfl⟩ := hx
    exact ⟨hlt, hevictable⟩
  dsimp only at h
  split at h
  · obtain ⟨i, hi, hret⟩ := bind_eq_ok.1 h
    cases hret
    refine ⟨rfl, rfl, fun i hr => hfound i ?_⟩
    rw [hr] at hi
    exact evicts_of_lruEvict hi
  · obtain ⟨i, hi, hret⟩ := bind_eq_ok.1 h
    cases hret
    refine ⟨?_, ?_, fun i hr => hfound i ?_⟩
    · split <;> rfl
    · split <;> rfl
    · rw [hr] at hi
      exact evicts_of_randomEvict hi

/-! ## Allocating a block -/

/-- The block at index `j` is given to a tag.  The blocks of `a` are still in the array when
`a₁` does so, but the one at `j` no longer counts. -/
lemma move_prepareFreshBlock (allow : Allowance) {a₁ : Activation} {l : Lines} {set i : ℕ}
    (h : cfg.prepareFreshBlock set i tag a₁ = .ok b) (ha : cfg.WellFormed a.cache) (habsent : cfg.lookup a.cache tag = none)
    (hset : cfg.calcSetFromTag tag = set) (hi : i < cfg.associativity)
    (hcontents : a₁.cache.cacheContents = a.cache.cacheContents)
    (hpending : ∀ u x, a₁.cache.pendingEviction u = some x → a.cache.pendingEviction u = some x ∨
      cfg.lookup a.cache u = some (cfg.blockIndex set i) ∧
        a.cache.cacheContents (cfg.blockIndex set i) = x ∧ x.locked = false ∧ x.state ≠ .invalid)
    (hl : l.pending = a₁.cache.pendingEviction) (hsent : l.sent = a₁.sent)
    (hblock : ∀ u, l.block u = if cfg.lookup a.cache u = some (cfg.blockIndex set i) then none
      else cfg.block a.cache u) :
    cfg.WellFormed b.cache ∧ cfg.Move allow l (cfg.lines b) := by
  have hmem : cfg.blockIndex set i ∈ cfg.set (cfg.calcSetFromTag tag) :=
    mem_set_iff.2 ⟨i, hi, by rw [hset]⟩
  have hothers : ∀ {c : BIPMOESICache} {x : BlockState},
      c.cacheContents = Function.update a₁.cache.cacheContents (cfg.blockIndex set i) x →
        c.cacheContents (cfg.blockIndex set i) = x ∧
        ∀ k, k ≠ cfg.blockIndex set i → c.cacheContents k = a.cache.cacheContents k := by
    intro c x hc
    rw [hc]
    exact ⟨Function.update_self _ _ _, fun k hk => by rw [Function.update_of_ne hk, hcontents]⟩
  -- the blocks of `b` once it is known what the block at `j` has become
  have hlines : ∀ x, Places cfg (cfg.blockIndex set i) tag a.cache b.cache →
      cfg.WellFormed b.cache → b.cache.cacheContents (cfg.blockIndex set i) = x →
      cfg.block b.cache = (l.setBlock tag (some x)).block := by
    intro x hplaces hb hx
    obtain ⟨hkeep, hdrop, hnew⟩ := ha.block_place hb hplaces
    funext u
    rw [Lines.block_setBlock, hblock]
    split
    · rename_i hu
      rw [hu, hnew, hx]
    · rename_i hu
      split
      · rename_i hj
        exact hdrop u hj
      · rename_i hj
        exact hkeep u hj hu
  have hfree : l.block tag = none := by
    rw [hblock, habsent, if_neg (by simp), block_of_lookup_none habsent]
  rw [prepareFreshBlock] at h
  obtain ⟨-, h⟩ := check_bind_eq_ok.1 h
  split at h
  · rename_i hnone
    obtain ⟨x, hc, hvalid, htag, hstate, hpend, hsent'⟩ : ∃ x, b.cache.cacheContents =
        Function.update a₁.cache.cacheContents (cfg.blockIndex set i) x ∧ x.valid = true ∧
        x.tag = tag ∧ x.state = .invalid ∧ b.cache.pendingEviction = a₁.cache.pendingEviction ∧
        b.sent = a₁.sent := by
      cases h
      exact ⟨_, rfl, rfl, rfl, rfl, rfl, rfl⟩
    obtain ⟨hx, hrest⟩ := hothers hc
    have hplaces : Places cfg (cfg.blockIndex set i) tag a.cache b.cache :=
      ⟨habsent, hmem, by rw [hx, hvalid], by rw [hx, htag], hrest⟩
    have hb := ha.place hplaces fun u y hy => by
      rw [hpend] at hy
      refine ⟨?_, hpending u y hy⟩
      rintro rfl
      exact Option.some_ne_none y (hy.symm.trans hnone)
    have heq : cfg.lines b = l.setBlock tag (some x) :=
      Lines.ext (hlines x hplaces hb hx) (hpend.trans hl.symm) (hsent'.trans hsent.symm)
    rw [heq]
    exact ⟨hb, .place tag x hfree (hl ▸ hnone) hstate⟩
  · rename_i x hsome
    obtain ⟨-, h⟩ := check_bind_eq_ok.1 h
    obtain ⟨-, h⟩ := check_bind_eq_ok.1 h
    obtain ⟨hc, hpend, hsent'⟩ : b.cache.cacheContents =
        Function.update a₁.cache.cacheContents (cfg.blockIndex set i) x ∧
        b.cache.pendingEviction = Function.update a₁.cache.pendingEviction tag none ∧
        b.sent = a₁.sent := by
      cases h
      exact ⟨rfl, rfl, rfl⟩
    obtain ⟨hx, hrest⟩ := hothers hc
    have hentry : x.tag = tag ∧ x.valid = true := by
      rcases hpending tag x hsome with hold | ⟨hj, -⟩
      · exact ⟨(ha.pending tag x hold).1, (ha.pending tag x hold).2.1⟩
      · rw [habsent] at hj
        cases hj
    have hplaces : Places cfg (cfg.blockIndex set i) tag a.cache b.cache :=
      ⟨habsent, hmem, by rw [hx, hentry.2], by rw [hx, hentry.1], hrest⟩
    have hb := ha.place hplaces fun u y hy => by
      rw [hpend] at hy
      by_cases hu : u = tag
      · rw [hu, Function.update_self] at hy
        cases hy
      · rw [Function.update_of_ne hu] at hy
        exact ⟨hu, hpending u y hy⟩
    have heq : cfg.lines b = (l.setBlock tag (some x)).setPending tag none := by
      refine Lines.ext (hlines x hplaces hb hx) ?_ (hsent'.trans hsent.symm)
      exact hpend.trans (congrArg (Function.update · tag none) hl.symm)
    rw [heq]
    exact ⟨hb, .restore tag hfree (hl ▸ hsome)⟩

/-- A block of a set whose tag is to be evicted is the block of that tag. -/
lemma lookup_of_isEvictable {set i : ℕ} (ha : cfg.WellFormed a.cache) (hi : i < cfg.associativity)
    (h : (a.cache.cacheContents (cfg.blockIndex set i)).isEvictable = true) :
    cfg.lookup a.cache (a.cache.cacheContents (cfg.blockIndex set i)).tag =
        some (cfg.blockIndex set i) ∧
      (a.cache.cacheContents (cfg.blockIndex set i)).state ≠ .invalid ∧
      (a.cache.cacheContents (cfg.blockIndex set i)).locked = false := by
  simp only [BlockState.isEvictable, Bool.and_eq_true, Bool.not_eq_true', decide_eq_true_eq] at h
  obtain ⟨⟨hvalid, hstate⟩, hlocked⟩ := h
  have hmem : cfg.blockIndex set i ∈ cfg.set set := mem_set_iff.2 ⟨i, hi, rfl⟩
  have hset := ha.set set _ hmem hvalid
  refine ⟨ha.lookup_eq_some.2 ⟨?_, hvalid, rfl⟩, hstate, hlocked⟩
  rw [hset]
  exact hmem

/-- Without its tag, a block counts for no tag. -/
lemma block_drop {c : BIPMOESICache} (hj : cfg.lookup c tag = some j) (u : AddrTag) :
    (if u = tag then none else cfg.block c u) =
      if cfg.lookup c u = some j then none else cfg.block c u := by
  by_cases hu : u = tag
  · rw [hu, if_pos rfl, if_pos hj]
  · have hne : cfg.lookup c u ≠ some j := fun hk => ne_of_lookup hj hk hu rfl
    rw [if_neg hu, if_neg hne]

lemma evictBlock_eq_ok {b c : Activation} (hj : cfg.lookup b.cache tag = some j)
    (h : cfg.evictBlock tag b = .ok c) : ∃ m delay, m.addr =
      cfg.calcAddr (b.cache.cacheContents j).tag ∧
      c = b.stamped.sendMsg .remoteConnection (.eviction m) delay := by
  rw [evictBlock, block_of_lookup hj] at h
  dsimp only at h
  obtain ⟨-, h⟩ := check_bind_eq_ok.1 h
  obtain ⟨-, h⟩ := check_bind_eq_ok.1 h
  obtain ⟨-, h⟩ := check_bind_eq_ok.1 h
  obtain ⟨-, h⟩ := check_bind_eq_ok.1 h
  cases h
  exact ⟨_, _, rfl, rfl⟩

/-- A tag that had no block may have one now. -/
lemma moves_allocateBlock (allow : Allowance) (habsent : cfg.lookup a.cache tag = none) :
    Ensures (fun r => cfg.Reaches allow a r.2) (cfg.allocateBlock tag a) := by
  intro r h ha
  rw [allocateBlock] at h
  dsimp only at h
  split at h
  · rename_i i hfind
    obtain ⟨b, hb, hret⟩ := bind_eq_ok.1 h
    cases hret
    have hi : i < cfg.associativity := List.mem_range.1 (List.mem_of_find?_eq_some hfind)
    have hinvalid := List.find?_some hfind
    -- the block is not in use, so it is the block of no tag
    have hfree : ∀ u, cfg.lookup a.cache u ≠
        some (cfg.blockIndex (cfg.calcSetFromTag tag) i) := by
      intro u hu
      rw [(isBlockOf_of_lookup hu).2.1] at hinvalid
      cases hinvalid
    obtain ⟨hwf, hmove⟩ := move_prepareFreshBlock allow (l := cfg.lines a) hb ha habsent
      rfl hi rfl (fun u x hx => .inl hx) rfl rfl fun u => by rw [if_neg (hfree u)]; rfl
    exact ⟨hwf, .single hmove⟩
  · obtain ⟨⟨eviction, b⟩, hevict, h⟩ := bind_eq_ok.1 h
    obtain ⟨hcache, hsent, hfound⟩ := evict_eq_ok hevict
    have hab : cfg.Reaches allow a b :=
      .tables (congrArg _ hcache) (congrArg _ hcache) hsent
    rw [← hcache] at hfound habsent
    obtain ⟨hwf, hmoves⟩ := hab ha
    dsimp only at h
    split at h
    · cases h
      exact ⟨hwf, hmoves⟩
    · rename_i i
      obtain ⟨hi, hevictable⟩ := hfound i rfl
      obtain ⟨hlookup, hstate, hlocked⟩ := lookup_of_isEvictable hwf hi hevictable
      generalize hj : cfg.blockIndex (cfg.calcSetFromTag tag) i = j at *
      split at h
      · rename_i htop
        obtain ⟨c, hc, h⟩ := bind_eq_ok.1 h
        obtain ⟨d, hd, hret⟩ := bind_eq_ok.1 h
        cases hret
        obtain ⟨m, delay, haddr, rfl⟩ := evictBlock_eq_ok hlookup hc
        obtain ⟨hwf', hmove⟩ := move_prepareFreshBlock allow
          (l := ((cfg.lines b).setBlock (b.cache.cacheContents j).tag none).send
            ⟨.remoteConnection, .eviction m, delay⟩)
          hd hwf habsent rfl hi rfl (fun u x hx => .inl hx) rfl rfl fun u => by
            rw [Lines.block_send, Lines.block_setBlock, hj]
            exact block_drop hlookup u
        refine ⟨hwf', hmoves.trans (.tail (.single ?_) hmove)⟩
        exact .evict _ m delay htop (block_of_lookup hlookup) haddr
      · rename_i htop
        obtain ⟨hnone, h⟩ := check_bind_eq_ok.1 h
        obtain ⟨d, hd, hret⟩ := bind_eq_ok.1 h
        cases hret
        have hsuspend : cfg.Move allow (cfg.lines b)
            (((cfg.lines b).setBlock (b.cache.cacheContents j).tag none).setPending
              (b.cache.cacheContents j).tag (some (b.cache.cacheContents j))) :=
          .suspend _ (Bool.not_eq_true _ ▸ htop) (block_of_lookup hlookup) hstate
        have hpending : ∀ u x, Function.update b.cache.pendingEviction (b.cache.cacheContents j).tag
            (some (b.cache.cacheContents j)) u = some x → b.cache.pendingEviction u = some x ∨
              cfg.lookup b.cache u = some j ∧ b.cache.cacheContents j = x ∧ x.locked = false ∧
                x.state ≠ .invalid := by
          intro u x hx
          by_cases hu : u = (b.cache.cacheContents j).tag
          · rw [hu, Function.update_self] at hx
            cases hx
            exact .inr ⟨hu ▸ hlookup, rfl, hlocked, hstate⟩
          · rw [Function.update_of_ne hu] at hx
            exact .inl hx
        have hblock : ∀ u, ((cfg.lines b).setBlock (b.cache.cacheContents j).tag none).block u =
            if cfg.lookup b.cache u = some j then none else cfg.block b.cache u := by
          intro u
          rw [Lines.block_setBlock]
          exact block_drop hlookup u
        -- the level above is told, unless the tag to allocate is being invalidated
        split at hd
        · obtain ⟨hwf', hmove⟩ := move_prepareFreshBlock allow
            (l := (((cfg.lines b).setBlock (b.cache.cacheContents j).tag none).setPending
              (b.cache.cacheContents j).tag (some (b.cache.cacheContents j))).send
              ⟨.localConnection, .invalidate
                { msgID := b.currentMsgStamp
                  addr := cfg.calcAddr (b.cache.cacheContents j).tag
                  newOwner := InvalidNodeID }, cfg.invalidateTime⟩)
            hd hwf habsent rfl hi rfl (by rw [hj]; exact hpending) rfl rfl (by rw [hj]; exact hblock)
          refine ⟨hwf', hmoves.trans (.tail (.tail (.single hsuspend) (.send _ ?_ ?_)) hmove)⟩
          · exact fun m hm => nomatch hm
          · exact fun hport => nomatch hport
        · obtain ⟨hwf', hmove⟩ := move_prepareFreshBlock allow
            (l := ((cfg.lines b).setBlock (b.cache.cacheContents j).tag none).setPending
              (b.cache.cacheContents j).tag (some (b.cache.cacheContents j)))
            hd hwf habsent rfl hi rfl (by rw [hj]; exact hpending) rfl rfl (by rw [hj]; exact hblock)
          exact ⟨hwf', hmoves.trans (.tail (.single hsuspend) hmove)⟩

/-! ## Requests -/

lemma lookup_modifyBlock {f : BlockState → BlockState}
    (hf : ∀ x, (f x).valid = x.valid ∧ (f x).tag = x.tag) :
    cfg.lookup (a.modifyBlock j f).cache = cfg.lookup a.cache := by
  refine lookup_congr fun k => ?_
  by_cases hk : k = j
  · rw [hk, cacheContents_modifyBlock_self]
    exact hf _
  · rw [cacheContents_modifyBlock_of_ne hk]
    exact ⟨rfl, rfl⟩

/-- The times and the lock of a block are not part of what it holds. -/
lemma Reaches.touch (hj : cfg.lookup a.cache tag = some j) {f : BlockState → BlockState}
    (hf : ∀ x, (f x).valid = x.valid ∧ (f x).tag = x.tag ∧ (f x).state = x.state) :
    cfg.Reaches allow a (a.modifyBlock j f) := by
  obtain ⟨hvalid, htag, hstate⟩ := hf (a.cache.cacheContents j)
  exact .mark hj ⟨hvalid, htag⟩ (by rw [hstate]) (by rw [hstate]; exact id)

lemma Reaches.sendMsg {s : Sent} (hab : cfg.Reaches allow a b) (hplain : s.isPlain)
    (hname : s.port = .remoteConnection → cfg.MayName allow s.msg.getAddress) :
    cfg.Reaches allow a (b.sendMsg s.port s.msg s.delay) :=
  hab.trans (.send s hplain hname)

/-- Nothing but a block that is not looked for changes its place. -/
lemma ensures_forwardMiss {x : BlockState} {requestingExclusive : Bool} :
    Ensures (fun b => cfg.Reaches allow a b ∧ cfg.lookup b.cache = cfg.lookup a.cache)
      (cfg.forwardMiss tag x requestingExclusive a) := by
  rw [forwardMiss]
  split
  · exact ensures_ok.2 ⟨.refl, rfl⟩
  · intro b h
    obtain ⟨c, hc, hret⟩ := bind_eq_ok.1 h
    cases hret
    rw [lockBlock] at hc
    split at hc
    · cases hc
    · rename_i j hj
      obtain ⟨-, hc⟩ := check_bind_eq_ok.1 hc
      obtain ⟨-, hc⟩ := check_bind_eq_ok.1 hc
      obtain ⟨-, hc⟩ := check_bind_eq_ok.1 hc
      cases hc
      have hlock : cfg.Reaches allow a (a.modifyBlock j fun x => { x with locked := true }) :=
        .touch hj fun x => ⟨rfl, rfl, rfl⟩
      have hlookup : cfg.lookup (a.modifyBlock j fun x => { x with locked := true }).cache =
          cfg.lookup a.cache := lookup_modifyBlock fun x => ⟨rfl, rfl⟩
      refine ⟨?_, hlookup⟩
      refine (hlock.trans (.tables rfl rfl rfl)).sendMsg (s := ⟨_, _, _⟩) ?_ ?_
      · exact fun m hm => nomatch hm
      · exact fun _ => .inl ⟨tag, rfl⟩

/-- The last step of a request to the block at `j` of a tag: the time of its use is noted. -/
lemma Reaches.use (hab : cfg.Reaches allow a b) (hlookup : cfg.lookup b.cache = cfg.lookup a.cache)
    (hj : cfg.lookup a.cache tag = some j) {f : BlockState → BlockState}
    (hf : ∀ x, (f x).valid = x.valid ∧ (f x).tag = x.tag ∧ (f x).state = x.state) :
    cfg.Reaches allow a (b.modifyBlock j f) := by
  have hjb : cfg.lookup b.cache tag = some j := by rw [hlookup, hj]
  exact hab.trans (.touch hjb hf)

lemma moves_performRead (hgrant : allow.grant) (m : ReadMsg) : cfg.Moves allow a (cfg.performRead m a) := by
  rw [performRead]
  dsimp only
  split
  · exact moves_error
  · rename_i j hj
    split
    · refine Ensures.bind (P := fun b => cfg.Reaches allow a b ∧
        cfg.lookup b.cache = cfg.lookup a.cache) ensures_forwardMiss fun b hb => ?_
      refine moves_ok.2 (.use ?_ ?_ hj ?_)
      · exact hb.1.trans (.tables rfl rfl rfl)
      · exact hb.2
      · exact fun x => ⟨rfl, rfl, rfl⟩
    · rename_i hhit
      obtain ⟨hstate, -⟩ := not_or.1 hhit
      refine moves_ok.2 (.use ?_ ?_ hj ?_)
      · refine fun ha => ⟨ha, .single ?_⟩
        refine .grant _ cfg.hitTime hgrant (block_of_lookup hj) hstate fun hexclusive => ?_
        rcases of_decide_eq_true hexclusive with h | h <;> rw [h] <;> rfl
      · rfl
      · exact fun x => ⟨rfl, rfl, rfl⟩

lemma moves_performWrite (m : WriteMsg) : cfg.Moves allow a (cfg.performWrite m a) := by
  rw [performWrite]
  dsimp only
  split
  · exact moves_error
  · rename_i j hj
    split
    · refine Ensures.bind (P := fun b => cfg.Reaches allow a b ∧
        cfg.lookup b.cache = cfg.lookup a.cache) ensures_forwardMiss fun b hb => ?_
      refine moves_ok.2 (.use ?_ ?_ hj ?_)
      · exact hb.1.trans (.tables rfl rfl rfl)
      · exact hb.2
      · exact fun x => ⟨rfl, rfl, rfl⟩
    · rename_i hhit
      obtain ⟨hinvalid, hshared, howned⟩ := by simpa only [not_or] using hhit
      have hstate : (a.cache.cacheContents j).state.isExclusive = true := by
        rcases h : (a.cache.cacheContents j).state <;> simp_all [BIPMOESIState.isExclusive]
      have hwrite : cfg.Reaches allow a
          (a.modifyBlock j fun x => { x with state := .modified }) :=
        .mark hj ⟨rfl, rfl⟩ (iff_of_false (fun h => nomatch h) hinvalid) fun _ => hstate
      have hlookup : cfg.lookup (a.modifyBlock j fun x => { x with state := .modified }).cache =
          cfg.lookup a.cache := lookup_modifyBlock fun x => ⟨rfl, rfl⟩
      refine moves_ok.2 (.use ?_ ?_ hj ?_)
      · refine (hwrite.trans (.tables rfl rfl rfl)).sendMsg (s := ⟨_, _, _⟩) ?_ ?_
        · exact fun m hm => nomatch hm
        · exact fun hport => nomatch hport
      · exact hlookup
      · exact fun x => ⟨rfl, rfl, rfl⟩

lemma invalidateBlock_eq_ok (h : invalidateBlock j a = .ok b) :
    b = a.modifyBlock j fun _ => .new := by
  obtain ⟨-, h⟩ := check_bind_eq_ok.1 h
  cases h
  rfl

/-- How a read of the remote connection is answered, by the answer `res`, and what becomes of
the block. -/
inductive Answers (cfg : CacheConfig) (m : ReadMsg) (a : Activation) (res : ReadResponseMsg) :
    Activation → Prop
  | refuse : ¬(cfg.lines a).Holds (cfg.calcTag m.addr) → res.satisfied = false →
      res.exclusiveOwnership = false → Answers cfg m a res a.stamped
  | yield (j : ℕ) (f : BlockState → BlockState) :
      cfg.lookup a.cache (cfg.calcTag m.addr) = some j →
      (a.cache.cacheContents j).state ≠ .invalid → m.requestingExclusive = true →
      res.satisfied = true → res.exclusiveOwnership = true →
      ((f = fun x => { x with state := .invalid }) ∧
          a.cache.waitingOnBlockUnlock (cfg.calcTag m.addr) ≠ [] ∨
        (f = fun _ => .new) ∧ a.cache.waitingOnBlockUnlock (cfg.calcTag m.addr) = []) →
      Answers cfg m a res (a.stamped.modifyBlock j f)
  | share (j : ℕ) (f : BIPMOESIState → BIPMOESIState) :
      cfg.lookup a.cache (cfg.calcTag m.addr) = some j →
      (a.cache.cacheContents j).state ≠ .invalid → m.requestingExclusive = false →
      res.satisfied = true → res.exclusiveOwnership = false →
      (∀ x, x ≠ .invalid → f x ≠ .invalid ∧ (f x).isExclusive = false) →
      Answers cfg m a res (a.stamped.modifyBlock j fun x => x.mapState f)

lemma not_holds_of_lookup (hnone : cfg.lookup a.cache tag = none) : ¬(cfg.lines a).Holds tag := by
  rintro ⟨x, hx, -⟩
  have hblock : (cfg.lines a).block tag = none := block_of_lookup_none hnone
  rw [hblock] at hx
  cases hx

lemma holds_iff_of_lookup (hj : cfg.lookup a.cache tag = some j) :
    (cfg.lines a).Holds tag ↔ (a.cache.cacheContents j).state ≠ .invalid := by
  have hblock : (cfg.lines a).block tag = some (a.cache.cacheContents j) := block_of_lookup hj
  rw [Lines.Holds, hblock]
  constructor
  · rintro ⟨x, ⟨⟩, hx⟩
    exact hx
  · exact fun h => ⟨_, rfl, h⟩

/-- A read of the remote connection gets one answer. -/
lemma performRemoteRead_eq_ok {m : ReadMsg} (h : cfg.performRemoteRead m a = .ok b) :
    ∃ res c, cfg.Answers m a res c ∧ res.addr = m.addr ∧ res.solicitingMessage = m.msgID ∧
      res.directoryLookup = false ∧
      b = c.sendMsg .remoteConnection (.readResponse res) cfg.hitTime := by
  rw [performRemoteRead] at h
  dsimp only at h
  split at h
  · rename_i hnone
    cases h
    exact ⟨_, _, .refuse (not_holds_of_lookup hnone) rfl rfl, rfl, rfl, rfl, rfl⟩
  · rename_i j hj
    have hj : cfg.lookup a.cache (cfg.calcTag m.addr) = some j := hj
    split at h
    · rename_i hinvalid
      cases h
      have hnot : ¬(cfg.lines a).Holds (cfg.calcTag m.addr) := by
        rw [holds_iff_of_lookup hj]
        exact not_not.2 hinvalid
      exact ⟨_, _, .refuse hnot rfl rfl, rfl, rfl, rfl, rfl⟩
    · rename_i hstate
      split at h
      · rename_i hexclusive
        split at h
        · rename_i hwaiters
          obtain ⟨-, h⟩ := check_bind_eq_ok.1 h
          cases h
          exact ⟨_, _, .yield j _ hj hstate hexclusive rfl rfl (.inl ⟨rfl, hwaiters⟩), rfl, rfl,
            rfl, rfl⟩
        · rename_i hwaiters
          obtain ⟨-, h⟩ := check_bind_eq_ok.1 h
          obtain ⟨c, hc, hret⟩ := bind_eq_ok.1 h
          cases hret
          rw [invalidateBlock_eq_ok hc]
          exact ⟨_, _, .yield j _ hj hstate hexclusive rfl rfl (.inr ⟨rfl, not_not.1 hwaiters⟩), rfl,
            rfl, rfl, rfl⟩
      · rename_i hshared
        cases h
        refine ⟨_, _, .share j _ hj hstate (Bool.eq_false_iff.2 hshared) rfl rfl fun x hx => ?_, rfl,
          rfl, rfl, rfl⟩
        cases x
        case invalid => exact absurd rfl hx
        all_goals exact ⟨(fun h => nomatch h), rfl⟩

/-- What the cache holds after an answer. -/
lemma Answers.lines_eq {m : ReadMsg} {res : ReadResponseMsg} (ha : cfg.WellFormed a.cache)
    (h : cfg.Answers m a res c) : cfg.WellFormed c.cache ∧
      (cfg.lines c = cfg.lines a ∧ res.satisfied = false ∧ res.exclusiveOwnership = false ∨
        ∃ x x', (cfg.lines a).block (cfg.calcTag m.addr) = some x ∧ x.state ≠ .invalid ∧
          cfg.lines c = (cfg.lines a).setBlock (cfg.calcTag m.addr) x' ∧
          (m.requestingExclusive = true ∧ res.exclusiveOwnership = true ∧
              (∀ y ∈ x', y.state = .invalid) ∧
              (x' = none → a.cache.waitingOnBlockUnlock (cfg.calcTag m.addr) = []) ∨
            m.requestingExclusive = false ∧ res.exclusiveOwnership = false ∧
              ∃ y, x' = some y ∧ y.state ≠ .invalid ∧ y.state.isExclusive = false)) := by
  have hstamped : cfg.WellFormed a.stamped.cache := ha
  cases h with
  | refuse hnot hunsatisfied hexclusive => exact ⟨ha, .inl ⟨rfl, hunsatisfied, hexclusive⟩⟩
  | yield j f hj hstate hexclusive hsatisfied hres hf =>
    have hj' : cfg.lookup a.stamped.cache (cfg.calcTag m.addr) = some j := hj
    rcases hf with ⟨rfl, hwaiters⟩ | ⟨rfl, hwaiters⟩
    · obtain ⟨hwf, -, hlines⟩ := hstamped.block_modify hj'
        (f := fun x => { x with state := .invalid }) ⟨rfl, rfl⟩
      refine ⟨hwf, .inr ⟨_, _, block_of_lookup hj, hstate, hlines, .inl ⟨hexclusive, hres, ?_, ?_⟩⟩⟩
      · rintro y ⟨⟩
        rfl
      · exact fun h => nomatch h
    · obtain ⟨hwf, hlines⟩ := hstamped.block_erase hj'
      refine ⟨hwf, .inr ⟨_, _, block_of_lookup hj, hstate, hlines, .inl ⟨hexclusive, hres, ?_, ?_⟩⟩⟩
      · rintro y ⟨⟩
      · exact fun _ => hwaiters
  | share j f hj hstate hshared hsatisfied hres hf =>
    have hj' : cfg.lookup a.stamped.cache (cfg.calcTag m.addr) = some j := hj
    obtain ⟨hwf, -, hlines⟩ := hstamped.block_modify hj' (f := fun x => x.mapState f) ⟨rfl, rfl⟩
    exact ⟨hwf, .inr ⟨_, _, block_of_lookup hj, hstate, hlines,
      .inr ⟨hshared, hres, _, rfl, hf _ hstate⟩⟩⟩

/-- A read of the remote connection is answered by moves; an exclusive one may take the line
away. -/
lemma moves_performRemoteRead {m : ReadMsg} (hanswer : allow.answer m)
    (hgive : m.requestingExclusive = true → (cfg.lines a).Holds (cfg.calcTag m.addr) →
      a.cache.waitingOnBlockUnlock (cfg.calcTag m.addr) = [] →
      allow.giveUp (cfg.calcTag m.addr)) :
    cfg.Moves allow a (cfg.performRemoteRead m a) := by
  intro b hb ha
  obtain ⟨res, c, hanswers, haddr, -, -, rfl⟩ := performRemoteRead_eq_ok hb
  obtain ⟨hwf, hcases⟩ := hanswers.lines_eq ha
  refine ⟨hwf, .single ?_⟩
  rw [lines_sendMsg]
  rcases hcases with ⟨hlines, hunsatisfied, -⟩ | ⟨x, x', hx, hstate, hlines, hcases⟩
  · rw [hlines]
    exact .refuse m res cfg.hitTime hanswer haddr hunsatisfied
  · rw [hlines]
    rcases hcases with ⟨hexclusive, hres, hinvalid, hwaiters⟩ | ⟨-, hres, y, rfl, hy, hyexclusive⟩
    · refine .yield m res cfg.hitTime x' hanswer hexclusive haddr hres hx hstate (fun hnone => ?_)
        hinvalid
      exact hgive hexclusive ⟨x, hx, hstate⟩ (hwaiters hnone)
    · exact .share m res cfg.hitTime y hanswer haddr hres hx hstate hy hyexclusive

/-- Answering reads of the remote connection adds nothing to what the cache holds. -/
lemma holds_performRemoteRead {m : ReadMsg} (ha : cfg.WellFormed a.cache)
    (hb : cfg.performRemoteRead m a = .ok b) :
    b.cache.waitingOnBlockUnlock = a.cache.waitingOnBlockUnlock ∧
      ∀ u, (cfg.lines b).Holds u → (cfg.lines a).Holds u := by
  obtain ⟨res, c, hanswers, -, -, -, rfl⟩ := performRemoteRead_eq_ok hb
  refine ⟨by cases hanswers <;> rfl, fun u hu => ?_⟩
  have hu : (cfg.lines c).Holds u := hu
  obtain ⟨hwf, ⟨hlines, -⟩ | ⟨x, x', hx, hstate, hlines, -⟩⟩ := hanswers.lines_eq ha
  · exact hlines ▸ hu
  · rw [hlines, Lines.Holds, Lines.block_setBlock] at hu
    by_cases hut : u = cfg.calcTag m.addr
    · rw [hut]
      exact ⟨x, hx, hstate⟩
    · rwa [if_neg hut] at hu

/-- The stored remote reads get their answers. -/
lemma moves_performRemoteReads {l : List ReadMsg} (hanswer : ∀ m ∈ l, allow.answer m)
    (hgive : ∀ m ∈ l, m.requestingExclusive = true → (cfg.lines a).Holds (cfg.calcTag m.addr) →
      a.cache.waitingOnBlockUnlock (cfg.calcTag m.addr) = [] →
      allow.giveUp (cfg.calcTag m.addr)) :
    cfg.Moves allow a (cfg.performRemoteReads l a) := by
  induction l generalizing a with
  | nil => exact moves_ok.2 .refl
  | cons m rest ih =>
    intro d hd
    rw [performRemoteReads] at hd
    obtain ⟨b, hb, hd⟩ := bind_eq_ok.1 hd
    have hab := moves_performRemoteRead (hanswer m (.head _)) (hgive m (.head _)) b hb
    intro ha
    obtain ⟨htable, hholds⟩ := holds_performRemoteRead ha hb
    refine hab.trans (ih (fun m' hm' => hanswer m' (.tail _ hm')) ?_ d hd) ha
    intro m' hm' hexclusive hheld hwaiters
    rw [htable] at hwaiters
    exact hgive m' (.tail _ hm') hexclusive (hholds _ hheld) hwaiters

/-! ## Invalidations -/

/-- A tag in a block has no pending eviction. -/
lemma WellFormed.pending_eq_none {c : BIPMOESICache} (hc : cfg.WellFormed c)
    (hj : cfg.lookup c tag = some j) : c.pendingEviction tag = none := by
  rcases hp : c.pendingEviction tag with _ | x
  · rfl
  · have hnone := (hc.pending tag x hp).2.2.2.2
    rw [hj] at hnone
    cases hnone

/-- The pending eviction of a tag is forgotten. -/
lemma WellFormed.drop_pending {c c' : BIPMOESICache} (hc : cfg.WellFormed c)
    (hcontents : c'.cacheContents = c.cacheContents)
    (hpending : c'.pendingEviction = Function.update c.pendingEviction tag none) :
    cfg.WellFormed c' := by
  refine hc.congr (fun k => by rw [hcontents]; exact ⟨rfl, rfl⟩) fun u x hx => ?_
  rw [hpending] at hx
  by_cases hu : u = tag
  · rw [hu, Function.update_self] at hx
    cases hx
  · rw [Function.update_of_ne hu] at hx
    exact ⟨x, hx, rfl, rfl, rfl, id⟩

/-- The answer to an invalidation, and the block is no longer valid. -/
lemma Reaches.invalidate_block {res : InvalidateResponseMsg} {delay : TimeDelta}
    (haddr : res.addr = cfg.calcAddr tag)
    (hj : cfg.lookup a.cache tag = some j) {f : BlockState → BlockState}
    (hf : f = (fun x => { x with state := .invalid }) ∨
      (f = fun _ => .new) ∧ allow.giveUp tag) :
    cfg.Reaches allow a
      ((a.sendMsg .remoteConnection (.invalidateResponse res) delay).modifyBlock j f) := by
  intro ha
  -- the tag has a block, so there is no pending eviction to forget
  have hpending : Function.update a.cache.pendingEviction tag none = a.cache.pendingEviction :=
    Function.update_eq_self_iff.2 (ha.pending_eq_none hj).symm
  have hcommute : ∀ x, ((cfg.lines a).setBlock tag x).setPending tag none =
      (cfg.lines a).setBlock tag x := fun x => Lines.ext rfl hpending rfl
  have hlines : cfg.lines ((a.sendMsg .remoteConnection (.invalidateResponse res)
      delay).modifyBlock j f) = (cfg.lines (a.modifyBlock j f)).send ⟨_, _, delay⟩ := rfl
  rw [hlines]
  rcases hf with rfl | ⟨rfl, hgive⟩
  · obtain ⟨hwf, -, heq⟩ := ha.block_modify hj (f := fun x => { x with state := .invalid })
      ⟨rfl, rfl⟩
    refine ⟨hwf, .single ?_⟩
    rw [heq, ← hcommute]
    refine .invalidate tag res _ _ haddr (.inr ⟨_, block_of_lookup hj, Option.some_ne_none _⟩) ?_
    rintro x ⟨⟩
    rfl
  · obtain ⟨hwf, heq⟩ := ha.block_erase hj
    refine ⟨hwf, .single ?_⟩
    rw [heq, ← hcommute]
    refine .invalidate tag res _ _ haddr (.inl ⟨rfl, hgive⟩) ?_
    rintro x ⟨⟩

/-- The answer to an invalidation of a tag without a block. -/
lemma Reaches.invalidate_pending {res : InvalidateResponseMsg} {delay : TimeDelta}
    (hgive : allow.giveUp tag) (haddr : res.addr = cfg.calcAddr tag)
    (hnone : cfg.lookup a.cache tag = none)
    (hcontents : b.cache.cacheContents = a.cache.cacheContents)
    (hpending : b.cache.pendingEviction = Function.update a.cache.pendingEviction tag none)
    (hsent : b.sent = a.sent) :
    cfg.Reaches allow a (b.sendMsg .remoteConnection (.invalidateResponse res) delay) := by
  intro ha
  have hblock : cfg.block b.cache = Function.update (cfg.block a.cache) tag none := by
    rw [block_of_cacheContents hcontents]
    exact (Function.update_eq_self_iff.2 (block_of_lookup_none hnone).symm).symm
  have hlines : cfg.lines b = ((cfg.lines a).setBlock tag none).setPending tag none :=
    Lines.ext hblock hpending hsent
  refine ⟨ha.drop_pending hcontents hpending, .single ?_⟩
  rw [lines_sendMsg, hlines]
  refine .invalidate tag res _ _ haddr (.inl ⟨rfl, hgive⟩) ?_
  rintro x ⟨⟩

lemma Reaches.setPendingInvalidate (hab : cfg.Reaches allow a b) (p : Option InvalidateMsg) :
    cfg.Reaches allow a (b.setPendingInvalidate tag p) := hab.trans (.tables rfl rfl rfl)

lemma Reaches.stamped (hab : cfg.Reaches allow a b) : cfg.Reaches allow a b.stamped :=
  hab.trans (.tables rfl rfl rfl)

/-- How an invalidation is answered, by the answer `res`, and what becomes of the block. -/
inductive Invalidates (cfg : CacheConfig) (tag : AddrTag) (a : Activation) (p : InvalidateMsg)
    (res : InvalidateResponseMsg) : Activation → Prop
  /-- Requests wait for the block, which is read again. -/
  | refetch (j : ℕ) (m : ReadMsg) : cfg.lookup a.cache tag = some j →
      a.cache.waitingOnBlockUnlock tag ≠ [] →
      res.blockAttached = (a.cache.cacheContents j).state.isDirty → m.addr = p.addr →
      Invalidates cfg tag a p res
        (((a.stamped.sendMsg .remoteConnection (.invalidateResponse res)
          cfg.invalidateTime).modifyBlock j fun x => { x with state := .invalid }).stamped.sendMsg
          .remoteConnection (.read m) cfg.invalidateTime)
  | erase (j : ℕ) : cfg.lookup a.cache tag = some j → a.cache.waitingOnBlockUnlock tag = [] →
      res.blockAttached = (a.cache.cacheContents j).state.isDirty →
      Invalidates cfg tag a p res
        ((a.stamped.sendMsg .remoteConnection (.invalidateResponse res)
          cfg.invalidateTime).modifyBlock j fun _ => .new)
  | absent (c : Activation) : cfg.lookup a.cache tag = none →
      a.cache.waitingOnBlockUnlock tag = [] →
      (res.blockAttached = true ↔
        ∃ x, a.cache.pendingEviction tag = some x ∧ x.state.isDirty = true) →
      c.cache.cacheContents = a.cache.cacheContents →
      c.cache.pendingEviction = Function.update a.cache.pendingEviction tag none →
      c.sent = a.sent →
      Invalidates cfg tag a p res
        (c.sendMsg .remoteConnection (.invalidateResponse res) cfg.invalidateTime)

/-- A pending invalidation gets one answer. -/
lemma respondInvalidate_eq_ok (h : cfg.respondInvalidate tag a = .ok b) :
    ∃ p res c, a.cache.pendingInvalidate tag = some p ∧ res.addr = cfg.calcAddr tag ∧
      cfg.Invalidates tag a p res c ∧ b = c.setPendingInvalidate tag none := by
  rw [respondInvalidate] at h
  split at h
  · cases h
  · rename_i p hp
    dsimp only at h
    rcases hj : cfg.lookup a.cache tag with _ | j
    · rw [hj] at h
      rcases hx : a.stamped.cache.pendingEviction tag with _ | x
      · have hsame : Function.update a.stamped.cache.pendingEviction tag none =
            a.stamped.cache.pendingEviction := Function.update_eq_self_iff.2 hx.symm
        rw [hx] at h
        dsimp only at h
        split at h
        · cases h
        · rename_i hwaiters
          cases h
          refine ⟨p, _, _, hp, rfl, .absent a.stamped hj (not_not.1 hwaiters) ?_ rfl hsame.symm rfl,
            rfl⟩
          refine iff_of_false Bool.false_ne_true ?_
          rintro ⟨x, hx', -⟩
          exact Option.some_ne_none x (hx'.symm.trans hx)
      · rw [hx] at h
        dsimp only at h
        split at h
        · cases h
        · rename_i hwaiters
          cases h
          refine ⟨p, _, _, hp, rfl, .absent (a.stamped.setPendingEviction tag none) hj
            (not_not.1 hwaiters) ?_ rfl rfl rfl, rfl⟩
          constructor
          · exact fun hdirty => ⟨x, hx, hdirty⟩
          · rintro ⟨y, hy, hdirty⟩
            rw [Option.some.inj (hx.symm.trans hy)]
            exact hdirty
    · rw [hj] at h
      dsimp only at h
      split at h
      · rename_i hwaiters
        obtain ⟨-, h⟩ := check_bind_eq_ok.1 h
        cases h
        exact ⟨p, _, _, hp, rfl, .refetch j _ hj hwaiters rfl rfl, rfl⟩
      · rename_i hwaiters
        obtain ⟨c, hc, hret⟩ := bind_eq_ok.1 h
        cases hret
        rw [invalidateBlock_eq_ok hc]
        exact ⟨p, _, _, hp, rfl, .erase j hj (not_not.1 hwaiters) rfl, rfl⟩

lemma moves_respondInvalidate
    (hgive : a.cache.waitingOnBlockUnlock tag = [] → allow.giveUp tag)
    (hname : ∀ p, a.cache.pendingInvalidate tag = some p → allow.name p.addr) :
    cfg.Moves allow a (cfg.respondInvalidate tag a) := by
  intro b hb
  obtain ⟨p, res, c, hp, haddr, hinvalidates, rfl⟩ := respondInvalidate_eq_ok hb
  have hab : cfg.Reaches allow a a.stamped := .tables rfl rfl rfl
  refine .setPendingInvalidate (hab.trans ?_) none
  cases hinvalidates with
  | refetch j m hj hwaiters hdirty hm =>
    refine .sendMsg (s := ⟨_, _, _⟩) (.stamped (.invalidate_block haddr hj (.inl rfl))) ?_ ?_
    · exact fun m hm => nomatch hm
    · refine fun _ => .inr ?_
      show allow.name m.addr
      rw [hm]
      exact hname p hp
  | erase j hj hwaiters hdirty =>
    exact .invalidate_block haddr hj (.inr ⟨rfl, hgive hwaiters⟩)
  | absent c hnone hwaiters hdirty hcontents hpending hsent =>
    exact .invalidate_pending (hgive hwaiters) haddr hnone hcontents hpending hsent

/-- Answering an invalidation starts no pending eviction. -/
lemma pending_respondInvalidate (hb : cfg.respondInvalidate tag a = .ok b) {x : BlockState}
    (hx : b.cache.pendingEviction tag = some x) : a.cache.pendingEviction tag = some x := by
  obtain ⟨p, res, c, -, -, hinvalidates, rfl⟩ := respondInvalidate_eq_ok hb
  cases hinvalidates with
  | refetch j m hj hwaiters hdirty hm => exact hx
  | erase j hj hwaiters hdirty => exact hx
  | absent c hnone hwaiters hdirty hcontents hpending hsent =>
    have hc : c.cache.pendingEviction tag = some x := hx
    rw [hpending, Function.update_self] at hc
    cases hc

/-! ## Messages from the local connection -/

lemma moves_onLocalRead (hgrant : allow.grant) (m : ReadMsg) : cfg.Moves allow a (cfg.onLocalRead m a) := by
  rw [onLocalRead]
  dsimp only
  split
  · exact moves_performRead hgrant m
  · rename_i hnone
    refine Ensures.bind (moves_allocateBlock allow hnone) fun r hr => ?_
    split
    · exact Moves.after hr (moves_performRead hgrant m)
    · exact moves_ok.2 (hr.trans (.tables rfl rfl rfl))

lemma moves_onLocalWrite (m : WriteMsg) : cfg.Moves allow a (cfg.onLocalWrite m a) := by
  rw [onLocalWrite]
  dsimp only
  split
  · exact moves_performWrite m
  · rename_i hnone
    refine Ensures.bind (moves_allocateBlock allow hnone) fun r hr => ?_
    split
    · exact Moves.after hr (moves_performWrite m)
    · exact moves_ok.2 (hr.trans (.tables rfl rfl rfl))

/-- Dirty data arrive for a block. -/
lemma Reaches.dirty (hj : cfg.lookup a.cache tag = some j) : cfg.Reaches allow a
    (a.modifyBlock j fun x => x.mapState BIPMOESIState.dirtied) := by
  refine .mark hj ⟨rfl, rfl⟩ ?_ ?_
  · show (a.cache.cacheContents j).state.dirtied = .invalid ↔ _
    cases (a.cache.cacheContents j).state <;> simp [BIPMOESIState.dirtied]
  · show (a.cache.cacheContents j).state.dirtied.isExclusive = true → _
    cases (a.cache.cacheContents j).state <;> simp [BIPMOESIState.dirtied, BIPMOESIState.isExclusive]

lemma moves_onLocalEviction (m : EvictionMsg) : cfg.Moves allow a (cfg.onLocalEviction m a) := by
  refine moves_ok.2 (.sendMsg (s := ⟨_, _, _⟩) (.stamped ?_) ?_ ?_)
  · split
    · rename_i j hj
      split
      · exact .dirty hj
      · exact .refl
    · exact .refl
  · exact fun m hm => nomatch hm
  · exact fun hport => nomatch hport

lemma moves_onLocalReadResponse {m : ReadResponseMsg}
    (hanswer : ∀ f ∈ a.cache.waitingOnRemoteReads (cfg.calcTag m.addr), allow.answer f)
    (hgive : ∀ f ∈ a.cache.waitingOnRemoteReads (cfg.calcTag m.addr),
      f.requestingExclusive = true → (cfg.lines a).Holds (cfg.calcTag f.addr) →
      a.cache.waitingOnBlockUnlock (cfg.calcTag f.addr) = [] →
      allow.giveUp (cfg.calcTag f.addr)) :
    cfg.Moves allow a (cfg.onLocalReadResponse m a) := by
  have hab : cfg.Reaches allow a (a.setWaitingOnRemoteReads (cfg.calcTag m.addr) []) :=
    .tables rfl rfl rfl
  exact .after hab (moves_performRemoteReads hanswer hgive)

lemma WellFormed.soil (ha : cfg.WellFormed a.cache) {x : BlockState}
    (hx : a.cache.pendingEviction tag = some x) : cfg.WellFormed
      (a.setPendingEviction tag (some (x.mapState BIPMOESIState.dirtied))).cache := by
  refine ha.congr (fun k => ⟨rfl, rfl⟩) fun u y hy => ?_
  have hy : Function.update a.cache.pendingEviction tag
      (some (x.mapState BIPMOESIState.dirtied)) u = some y := hy
  by_cases hu : u = tag
  · rw [hu, Function.update_self] at hy
    cases hy
    refine ⟨x, hu ▸ hx, rfl, rfl, rfl, ?_⟩
    show x.state ≠ .invalid → x.state.dirtied ≠ .invalid
    cases x.state <;> simp [BIPMOESIState.dirtied]
  · rw [Function.update_of_ne hu] at hy
    exact ⟨y, hy, rfl, rfl, rfl, id⟩

/-- Dirty data arrive for a block whose eviction is pending. -/
lemma Reaches.soil {x : BlockState} (hx : a.cache.pendingEviction tag = some x) :
    cfg.Reaches allow a
      (a.setPendingEviction tag (some (x.mapState BIPMOESIState.dirtied))) :=
  fun ha => ⟨ha.soil hx, .single (.soil tag hx)⟩

/-- The block whose eviction was pending leaves the cache. -/
lemma Reaches.release {x : BlockState} {m : EvictionMsg} (hgive : allow.giveUp tag)
    (hx : a.cache.pendingEviction tag = some x) (haddr : m.addr = cfg.calcAddr tag)
    (delay : TimeDelta) :
    cfg.Reaches allow a ((a.stamped.setPendingEviction tag none).sendMsg .remoteConnection
      (.eviction m) delay) :=
  fun ha => ⟨ha.drop_pending rfl rfl, .single (.release tag m delay hgive hx haddr)⟩

lemma moves_onLocalInvalidateResponse {m : InvalidateResponseMsg}
    (hgive : a.cache.canceledBlockEviction (cfg.calcTag m.addr) = false →
      a.cache.waitingOnBlockUnlock (cfg.calcTag m.addr) = [] ∨
        a.cache.pendingEviction (cfg.calcTag m.addr) ≠ none → allow.giveUp (cfg.calcTag m.addr))
    (hname : ∀ p, a.cache.pendingInvalidate (cfg.calcTag m.addr) = some p →
      allow.name p.addr) : cfg.Moves allow a (cfg.onLocalInvalidateResponse m a) := by
  rw [onLocalInvalidateResponse]
  dsimp only
  rw [moves_check_bind]
  intro hpending
  split
  · rw [moves_check_bind]
    intro hnone
    rw [moves_check_bind]
    intro hnone'
    exact moves_ok.2 (.tables rfl rfl rfl)
  · rename_i hcanceled
    have hg := hgive (Bool.eq_false_iff.2 hcanceled)
    -- the dirty data are kept with the block, in the array or with the pending evictions
    generalize hs : (ite (m.blockAttached = true) _ a : Activation) = s
    obtain ⟨has, htable, hwaiters, hpend⟩ : cfg.Reaches allow a s ∧
        s.cache.pendingInvalidate = a.cache.pendingInvalidate ∧
        s.cache.waitingOnBlockUnlock = a.cache.waitingOnBlockUnlock ∧
        (s.cache.pendingEviction (cfg.calcTag m.addr) ≠ none →
          a.cache.pendingEviction (cfg.calcTag m.addr) ≠ none) := by
      rw [← hs]
      split
      · split
        · rename_i x hx
          exact ⟨.soil hx, rfl, rfl, fun _ => by rw [hx]; exact Option.some_ne_none x⟩
        · split
          · rename_i j hp hj
            exact ⟨.dirty hj, rfl, rfl, id⟩
          · exact ⟨.refl, rfl, rfl, id⟩
      · exact ⟨.refl, rfl, rfl, id⟩
    rw [← htable] at hname
    rw [← hwaiters] at hg
    refine .after has ?_
    split
    · intro d hd
      obtain ⟨c, hc, hd⟩ := bind_eq_ok.1 hd
      have hsc := moves_respondInvalidate (fun h => hg (.inl h)) hname c hc
      refine hsc.trans ?_
      split at hd
      · rename_i x hx
        cases hd
        have hsx := pending_respondInvalidate hc hx
        refine .release (hg (.inr (hpend ?_))) hx rfl _
        rw [hsx]
        exact Option.some_ne_none x
      · cases hd
        exact .refl
    · rw [pure_bind]
      split
      · rename_i x hx
        refine moves_ok.2 (.release (hg (.inr (hpend ?_))) hx rfl _)
        rw [hx]
        exact Option.some_ne_none x
      · exact moves_ok.2 .refl

/-! ## Messages from the remote connection -/

lemma moves_onRemoteRead {m : ReadMsg} (hanswer : allow.answer m)
    (hgive : cfg.topCache = true → m.requestingExclusive = true →
      a.cache.waitingOnBlockUnlock (cfg.calcTag m.addr) = [] →
      allow.giveUp (cfg.calcTag m.addr)) : cfg.Moves allow a (cfg.onRemoteRead m a) := by
  rw [onRemoteRead]
  dsimp only
  split
  · rename_i hnone
    refine moves_performRemoteRead hanswer fun _ hholds _ => ?_
    obtain ⟨x, hx, -⟩ := hholds
    exact absurd (hx.symm.trans hnone) (Option.some_ne_none x)
  · rename_i b hb
    split
    · rename_i hcond
      refine moves_performRemoteRead hanswer fun hexclusive hholds hwaiters => ?_
      obtain ⟨x, hx, hstate⟩ := hholds
      obtain rfl := Option.some.inj (hx.symm.trans hb)
      rcases hcond with htop | hinvalid | ⟨hshared, -⟩
      · exact hgive htop hexclusive hwaiters
      · exact absurd hinvalid hstate
      · rw [hexclusive] at hshared
        cases hshared
    · refine moves_ok.2 ((Reaches.sendMsg (s := ⟨_, _, _⟩) (.stamped .refl) ?_ ?_).trans
        (.tables rfl rfl rfl))
      · exact fun m hm => nomatch hm
      · exact fun hport => nomatch hport

lemma moves_onRemoteInvalidate {m : InvalidateMsg} (hname : allow.name m.addr)
    (hgive : a.cache.pendingInvalidate (cfg.calcTag m.addr) = none →
      cfg.topCache = true ∨ cfg.lookup a.cache (cfg.calcTag m.addr) = none →
      a.cache.waitingOnBlockUnlock (cfg.calcTag m.addr) = [] →
      allow.giveUp (cfg.calcTag m.addr)) : cfg.Moves allow a (cfg.onRemoteInvalidate m a) := by
  rw [onRemoteInvalidate]
  dsimp only
  have hab : cfg.Reaches allow a (a.setPendingInvalidate (cfg.calcTag m.addr) (some m)) :=
    .tables rfl rfl rfl
  have hname' : ∀ p, (a.setPendingInvalidate (cfg.calcTag m.addr) (some m)).cache.pendingInvalidate
      (cfg.calcTag m.addr) = some p → allow.name p.addr := by
    intro p hp
    have hp' : Function.update a.cache.pendingInvalidate (cfg.calcTag m.addr) (some m)
        (cfg.calcTag m.addr) = some p := hp
    rw [Function.update_self] at hp'
    cases hp'
    exact hname
  split
  · exact moves_ok.2 .refl
  · rename_i hpending
    split
    · rename_i htop
      exact .after hab (moves_respondInvalidate (hgive hpending (.inl htop)) hname')
    · split
      · refine .after hab (moves_ok.2 (.send ⟨_, _, _⟩ ?_ ?_))
        · exact fun m hm => nomatch hm
        · exact fun hport => nomatch hport
      · rename_i hnone
        exact .after hab (moves_respondInvalidate (hgive hpending (.inr hnone)) hname')

lemma moves_performBlockWaiters (hgrant : allow.grant) (l : List BlockWaiter) :
    cfg.Moves allow a (cfg.performBlockWaiters l a) := by
  induction l generalizing a with
  | nil => exact moves_ok.2 .refl
  | cons w rest ih =>
    cases w with
    | performRead m => exact Moves.bind (moves_performRead hgrant m) fun b => ih
    | performWrite m => exact Moves.bind (moves_performWrite m) fun b => ih

lemma moves_retrySetWaiters (hgrant : allow.grant) (l : List SetWaiter) :
    cfg.Moves allow a (cfg.retrySetWaiters l a) := by
  induction l generalizing a with
  | nil => exact moves_ok.2 .refl
  | cons w rest ih =>
    cases w with
    | read m => exact Moves.bind (moves_onLocalRead hgrant m) fun b => ih
    | write m => exact Moves.bind (moves_onLocalWrite m) fun b => ih

lemma moves_unlockBlock (hgrant : allow.grant) : cfg.Moves allow a (cfg.unlockBlock tag a) := by
  rw [unlockBlock]
  split
  · exact moves_error
  · rename_i j hj
    rw [moves_check_bind]
    intro hvalid
    rw [moves_check_bind]
    intro hlocked
    dsimp only
    rw [moves_check_bind]
    intro hwaiters
    have hunlock : cfg.Reaches allow a (a.modifyBlock j fun b => { b with locked := false }) :=
      .touch hj fun x => ⟨rfl, rfl, rfl⟩
    have hclear : cfg.Reaches allow a ((a.modifyBlock j fun b => { b with locked := false
        }).setWaitingOnBlockUnlock tag []) := hunlock.trans (.tables rfl rfl rfl)
    refine .after hclear (Moves.bind (moves_performBlockWaiters hgrant _) fun b => ?_)
    split
    · exact moves_ok.2 .refl
    · have hset : cfg.Reaches allow b (b.setWaitingOnSetUnlock (cfg.calcSetFromTag tag) []) :=
        .tables rfl rfl rfl
      exact .after hset (moves_retrySetWaiters hgrant _)

lemma moves_onRemoteReadResponse {m : ReadResponseMsg} (hgrant : allow.grant) (hname : allow.name m.addr)
    (htake : allow.take (cfg.calcTag m.addr) (if m.exclusiveOwnership then .exclusive else .shared)) :
    cfg.Moves allow a (cfg.onRemoteReadResponse m a) := by
  rw [onRemoteReadResponse]
  have hrefuse : cfg.Reaches allow a (a.stamped.sendMsg .remoteConnection
      (.eviction
        { msgID := a.currentMsgStamp, addr := m.addr, blockAttached := m.blockAttached })
      cfg.evictionTime) := by
    refine .sendMsg (s := ⟨_, _, _⟩) (.stamped .refl) ?_ ?_
    · exact fun m hm => nomatch hm
    · exact fun _ => .inr hname
  split
  · refine moves_ok.2 ?_
    split
    · exact .refl
    · exact hrefuse
  · rename_i j hj
    split
    · refine moves_ok.2 ?_
      split
      · exact .refl
      · exact hrefuse
    · refine .after (fun ha => ?_) (moves_unlockBlock hgrant)
      obtain ⟨hwf, -, hlines⟩ := ha.block_modify hj (f := fun b =>
        { b with state := if m.exclusiveOwnership then .exclusive else .shared }) ⟨rfl, rfl⟩
      rw [hlines]
      refine ⟨hwf, .single (.take _ (block_of_lookup hj) ?_ htake)⟩
      dsimp only
      split <;> exact fun h => nomatch h

/-! ## What each message allows -/

variable (cfg) in
/-- What a cache may do when it handles a message. -/
def allowance (c : BIPMOESICache) (port : Port) (msg : Msg) : Allowance where
  giveUp tag :=
    match port, msg with
    | .localConnection, .readResponse m =>
        (∃ f ∈ c.waitingOnRemoteReads (cfg.calcTag m.addr),
            f.requestingExclusive = true ∧ cfg.calcTag f.addr = tag) ∧
          (∃ x, cfg.block c tag = some x ∧ x.state ≠ .invalid) ∧ c.waitingOnBlockUnlock tag = []
    | .localConnection, .invalidateResponse m =>
        tag = cfg.calcTag m.addr ∧ c.canceledBlockEviction tag = false ∧
          (c.waitingOnBlockUnlock tag = [] ∨ c.pendingEviction tag ≠ none)
    | .remoteConnection, .read m =>
        tag = cfg.calcTag m.addr ∧ cfg.topCache = true ∧ m.requestingExclusive = true ∧
          c.waitingOnBlockUnlock tag = []
    | .remoteConnection, .invalidate m =>
        tag = cfg.calcTag m.addr ∧ c.pendingInvalidate tag = none ∧
          (cfg.topCache = true ∨ cfg.lookup c tag = none) ∧ c.waitingOnBlockUnlock tag = []
    | _, _ => False
  take tag state :=
    match port, msg with
    | .remoteConnection, .readResponse m =>
        tag = cfg.calcTag m.addr ∧ state = if m.exclusiveOwnership then .exclusive else .shared
    | _, _ => False
  grant :=
    match port, msg with
    | .localConnection, .read _ => True
    | .localConnection, .write _ => True
    | .remoteConnection, .readResponse _ => True
    | _, _ => False
  answer f :=
    match port, msg with
    | .localConnection, .readResponse m => f ∈ c.waitingOnRemoteReads (cfg.calcTag m.addr)
    | .remoteConnection, .read m => f = m
    | _, _ => False
  name addr :=
    addr = msg.getAddress ∨ ∃ tag p, c.pendingInvalidate tag = some p ∧ p.addr = addr

/-- Every handler is a sequence of moves that its message allows. -/
theorem moves_recvMsg (port : Port) (msg : Msg) :
    cfg.Moves (cfg.allowance a.cache port msg) a (cfg.recvMsg port msg a) := by
  unfold recvMsg
  split
  · exact moves_onLocalRead trivial _
  · exact moves_onLocalWrite _
  · exact moves_onLocalEviction _
  · exact moves_onLocalReadResponse (fun f hf => hf) fun f hf h hholds hwaiters =>
      ⟨⟨f, hf, h, rfl⟩, hholds, hwaiters⟩
  · exact moves_onLocalInvalidateResponse (fun h h' => ⟨rfl, h, h'⟩) fun p hp =>
      .inr ⟨_, p, hp, rfl⟩
  · exact moves_onRemoteRead rfl fun htop h hwaiters => ⟨rfl, htop, h, hwaiters⟩
  · refine moves_ok.2 (.sendMsg (s := ⟨_, _, _⟩) (.stamped .refl) ?_ ?_)
    · exact fun m hm => nomatch hm
    · exact fun _ => .inr (.inl rfl)
  · exact moves_onRemoteInvalidate (.inl rfl) fun hpending h hwaiters =>
      ⟨rfl, hpending, h, hwaiters⟩
  · refine moves_ok.2 (.sendMsg (s := ⟨_, _, _⟩) (.stamped .refl) ?_ ?_)
    · exact fun m hm => nomatch hm
    · exact fun _ => .inr (.inl rfl)
  · exact moves_onRemoteReadResponse trivial (.inl rfl) ⟨rfl, rfl⟩
  · exact moves_ok.2 .refl
  · exact moves_ok.2 .refl
  · exact moves_ok.2 .refl
  · exact moves_error

end CacheConfig

end Sesc.Cache
