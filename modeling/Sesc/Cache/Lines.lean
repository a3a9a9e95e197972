import Mathlib.Logic.Relation
import Sesc.Cache.Lookup

/-!
# A cache, tag by tag

What a cache holds is, for every tag, its block and its pending eviction; where in the array
the block is does not matter.  This file has the moves that a handler makes on such a
picture of the cache, with what each of them sends.  The array of blocks refines the
picture as long as it is well-formed.
-/

namespace Sesc.Cache

open Lib Relation

/-- Whether the processor may write to the line without asking. -/
def BIPMOESIState.isExclusive : BIPMOESIState → Bool
  | modified => true
  | exclusive => true
  | _ => false

/-- The blocks and the pending evictions of a cache and what it has sent. -/
@[ext]
structure Lines where
  block : AddrTag → Option BlockState
  pending : AddrTag → Option BlockState
  sent : List Sent

namespace Lines

variable (l : Lines)

def setBlock (tag : AddrTag) (b : Option BlockState) : Lines :=
  { l with block := Function.update l.block tag b }

def setPending (tag : AddrTag) (b : Option BlockState) : Lines :=
  { l with pending := Function.update l.pending tag b }

def send (s : Sent) : Lines := { l with sent := l.sent ++ [s] }

@[simp, grind =] lemma block_setBlock (tag u : AddrTag) (b : Option BlockState) :
    (l.setBlock tag b).block u = if u = tag then b else l.block u :=
  Function.update_apply _ _ _ _

@[simp, grind =] lemma pending_setBlock (tag u : AddrTag) (b : Option BlockState) :
    (l.setBlock tag b).pending u = l.pending u := rfl

@[simp, grind =] lemma sent_setBlock (tag : AddrTag) (b : Option BlockState) :
    (l.setBlock tag b).sent = l.sent := rfl

@[simp, grind =] lemma block_setPending (tag u : AddrTag) (b : Option BlockState) :
    (l.setPending tag b).block u = l.block u := rfl

@[simp, grind =] lemma pending_setPending (tag u : AddrTag) (b : Option BlockState) :
    (l.setPending tag b).pending u = if u = tag then b else l.pending u :=
  Function.update_apply _ _ _ _

@[simp, grind =] lemma sent_setPending (tag : AddrTag) (b : Option BlockState) :
    (l.setPending tag b).sent = l.sent := rfl

@[simp, grind =] lemma block_send (s : Sent) (u : AddrTag) : (l.send s).block u = l.block u := rfl

@[simp, grind =] lemma pending_send (s : Sent) (u : AddrTag) :
    (l.send s).pending u = l.pending u := rfl

@[simp, grind =] lemma sent_send (s : Sent) : (l.send s).sent = l.sent ++ [s] := rfl

/-- The tag is in a valid block. -/
def Holds (tag : AddrTag) : Prop := ∃ b, l.block tag = some b ∧ b.state ≠ .invalid

/-- The tag is in a block that the processor may write to. -/
def HoldsExclusive (tag : AddrTag) : Prop :=
  ∃ b, l.block tag = some b ∧ b.state.isExclusive = true

end Lines

/-- What the message that is handled allows a cache to do. -/
structure Allowance where
  /-- Leaving a tag without a block and without a pending eviction. -/
  giveUp : AddrTag → Prop
  /-- Taking a tag in the given state. -/
  take : AddrTag → BIPMOESIState → Prop
  /-- Answering reads of the local connection. -/
  grant : Prop
  /-- Answering a read of the remote connection. -/
  answer : ReadMsg → Prop
  /-- Writing an address into a message to the remote connection, if it is not that of a line. -/
  name : Address → Prop

/-- A message that no other move accounts for. -/
def Sent.isPlain (s : Sent) : Prop := ∀ m, s.msg ≠ .readResponse m

namespace CacheConfig

variable (cfg : CacheConfig) (allow : Allowance)

/-- What may be the address of a message to the remote connection. -/
def MayName (addr : Address) : Prop := (∃ tag, addr = cfg.calcAddr tag) ∨ allow.name addr

/-- A move of a cache. -/
inductive Move : Lines → Lines → Prop
  | send {l : Lines} (s : Sent) : s.isPlain →
      (s.port = .remoteConnection → cfg.MayName allow s.msg.getAddress) → Move l (l.send s)
  /-- A read of the local connection is answered. -/
  | grant {l : Lines} {b : BlockState} (m : ReadResponseMsg) (delay : TimeDelta) :
      allow.grant → l.block (cfg.calcTag m.addr) = some b → b.state ≠ .invalid →
      (m.exclusiveOwnership = true → b.state.isExclusive = true) →
      Move l (l.send ⟨.localConnection, .readResponse m, delay⟩)
  /-- A block remains valid or remains invalid. -/
  | mark {l : Lines} {tag : AddrTag} {b : BlockState} (b' : BlockState) : l.block tag = some b →
      (b'.state = .invalid ↔ b.state = .invalid) →
      (b'.state.isExclusive = true → b.state.isExclusive = true) →
      Move l (l.setBlock tag (some b'))
  /-- The answer of the level below arrives. -/
  | take {l : Lines} {tag : AddrTag} {b : BlockState} (b' : BlockState) : l.block tag = some b →
      b'.state ≠ .invalid → allow.take tag b'.state → Move l (l.setBlock tag (some b'))
  /-- A read of the remote connection cannot be answered. -/
  | refuse {l : Lines} (m : ReadMsg) (res : ReadResponseMsg) (delay : TimeDelta) :
      allow.answer m → res.addr = m.addr → res.satisfied = false →
      Move l (l.send ⟨.remoteConnection, .readResponse res, delay⟩)
  /-- A shared read of the remote connection is answered. -/
  | share {l : Lines} {b : BlockState} (m : ReadMsg) (res : ReadResponseMsg) (delay : TimeDelta)
      (b' : BlockState) : allow.answer m → res.addr = m.addr → res.exclusiveOwnership = false →
      l.block (cfg.calcTag m.addr) = some b → b.state ≠ .invalid → b'.state ≠ .invalid →
      b'.state.isExclusive = false →
      Move l ((l.setBlock (cfg.calcTag m.addr) (some b')).send
        ⟨.remoteConnection, .readResponse res, delay⟩)
  /-- An exclusive read of the remote connection is answered. -/
  | yield {l : Lines} {b : BlockState} (m : ReadMsg) (res : ReadResponseMsg) (delay : TimeDelta)
      (b' : Option BlockState) : allow.answer m → m.requestingExclusive = true →
      res.addr = m.addr → res.exclusiveOwnership = true →
      l.block (cfg.calcTag m.addr) = some b → b.state ≠ .invalid →
      (b' = none → allow.giveUp (cfg.calcTag m.addr)) → (∀ x ∈ b', x.state = .invalid) →
      Move l ((l.setBlock (cfg.calcTag m.addr) b').send
        ⟨.remoteConnection, .readResponse res, delay⟩)
  /-- An invalidation is answered. -/
  | invalidate {l : Lines} (tag : AddrTag) (res : InvalidateResponseMsg) (delay : TimeDelta)
      (b' : Option BlockState) : res.addr = cfg.calcAddr tag →
      (b' = none ∧ allow.giveUp tag ∨ ∃ b, l.block tag = some b ∧ b' ≠ none) →
      (∀ x ∈ b', x.state = .invalid) →
      Move l (((l.setBlock tag b').setPending tag none).send
        ⟨.remoteConnection, .invalidateResponse res, delay⟩)
  /-- The top cache evicts a block. -/
  | evict {l : Lines} {b : BlockState} (tag : AddrTag) (m : EvictionMsg) (delay : TimeDelta) :
      cfg.topCache = true → l.block tag = some b → m.addr = cfg.calcAddr tag →
      Move l ((l.setBlock tag none).send ⟨.remoteConnection, .eviction m, delay⟩)
  /-- Another cache begins to evict a block. -/
  | suspend {l : Lines} {b : BlockState} (tag : AddrTag) : cfg.topCache = false →
      l.block tag = some b → b.state ≠ .invalid → Move l ((l.setBlock tag none).setPending tag (some b))
  /-- The pending eviction of a tag ends. -/
  | release {l : Lines} {b : BlockState} (tag : AddrTag) (m : EvictionMsg) (delay : TimeDelta) :
      allow.giveUp tag → l.pending tag = some b → m.addr = cfg.calcAddr tag →
      Move l ((l.setPending tag none).send ⟨.remoteConnection, .eviction m, delay⟩)
  /-- A tag gets a block, which is invalid. -/
  | place {l : Lines} (tag : AddrTag) (b : BlockState) : l.block tag = none →
      l.pending tag = none → b.state = .invalid → Move l (l.setBlock tag (some b))
  /-- The pending eviction of a tag is canceled. -/
  | restore {l : Lines} {b : BlockState} (tag : AddrTag) : l.block tag = none →
      l.pending tag = some b → Move l ((l.setBlock tag (some b)).setPending tag none)
  /-- Dirty data arrive for a block whose eviction is pending. -/
  | soil {l : Lines} {b : BlockState} (tag : AddrTag) : l.pending tag = some b →
      Move l (l.setPending tag (some (b.mapState BIPMOESIState.dirtied)))

/-- The picture of a cache at work. -/
def lines (a : Activation) : Lines where
  block := cfg.block a.cache
  pending := a.cache.pendingEviction
  sent := a.sent

lemma lines_sendMsg (a : Activation) (port : Port) (msg : Msg) (delay : TimeDelta) :
    cfg.lines (a.sendMsg port msg delay) = (cfg.lines a).send ⟨port, msg, delay⟩ := rfl

/-- The cache has become `b` by moves. -/
def Reaches (a b : Activation) : Prop :=
  cfg.WellFormed a.cache →
    cfg.WellFormed b.cache ∧ ReflTransGen (cfg.Move allow) (cfg.lines a) (cfg.lines b)

/-- A handler does nothing but moves. -/
def Moves (a : Activation) (x : Except Fault Activation) : Prop :=
  Ensures (cfg.Reaches allow a) x

variable {cfg allow} {a b c : Activation} {x : Except Fault Activation} {tag : AddrTag} {j : ℕ}

lemma Reaches.refl : cfg.Reaches allow a a := fun h => ⟨h, .refl⟩

lemma Reaches.trans (hab : cfg.Reaches allow a b) (hbc : cfg.Reaches allow b c) :
    cfg.Reaches allow a c := by
  intro ha
  obtain ⟨hb, hmoves⟩ := hab ha
  obtain ⟨hc, hmoves'⟩ := hbc hb
  exact ⟨hc, hmoves.trans hmoves'⟩

lemma Moves.bind {g : Activation → Except Fault Activation} (hx : cfg.Moves allow a x)
    (hg : ∀ b, cfg.Moves allow b (g b)) : cfg.Moves allow a (x >>= g) :=
  Ensures.bind hx fun b hab => (hg b).mono fun _ hbc => hab.trans hbc

lemma Moves.after (hab : cfg.Reaches allow a b) (hx : cfg.Moves allow b x) :
    cfg.Moves allow a x :=
  Ensures.mono hx fun _ hbc => hab.trans hbc

@[simp] lemma moves_ok : cfg.Moves allow a (.ok b) ↔ cfg.Reaches allow a b := ensures_ok

@[simp] lemma moves_error {e : Fault} : cfg.Moves allow a (.error e) := ensures_error

@[simp] lemma moves_check_bind {e : Fault} {p : Bool} {g : PUnit → Except Fault Activation} :
    cfg.Moves allow a (check e p >>= g) ↔ (p = true → cfg.Moves allow a (g ⟨⟩)) :=
  ensures_check_bind

/-! ## Operations as moves -/

/-- Well-formedness looks at the blocks and the pending evictions. -/
lemma WellFormed.tables {c c' : BIPMOESICache} (h : cfg.WellFormed c)
    (hcontents : c'.cacheContents = c.cacheContents)
    (hpending : c'.pendingEviction = c.pendingEviction) : cfg.WellFormed c' := by
  refine h.congr (fun k => by rw [hcontents]; exact ⟨rfl, rfl⟩) fun u b hb => ?_
  rw [hpending] at hb
  exact ⟨b, hb, rfl, rfl, rfl, id⟩

lemma block_of_lookup {c : BIPMOESICache} {k : ℕ} (h : cfg.lookup c tag = some k) :
    cfg.block c tag = some (c.cacheContents k) := by
  rw [CacheConfig.block, h, Option.map_some]

/-- The blocks of a cache are those of its array. -/
lemma block_of_cacheContents {c c' : BIPMOESICache} (h : c'.cacheContents = c.cacheContents) :
    cfg.block c' = cfg.block c := by
  funext u
  rw [CacheConfig.block, CacheConfig.block, CacheConfig.lookup, CacheConfig.lookup, h]

lemma block_of_lookup_none {c : BIPMOESICache} (h : cfg.lookup c tag = none) :
    cfg.block c tag = none := by
  rw [CacheConfig.block, h, Option.map_none]

/-- Two caches agree on a tag whose block is at the same place. -/
lemma block_congr {c c' : BIPMOESICache} (h : cfg.lookup c' tag = cfg.lookup c tag)
    (hk : ∀ k, cfg.lookup c tag = some k → c'.cacheContents k = c.cacheContents k) :
    cfg.block c' tag = cfg.block c tag := by
  rcases hl : cfg.lookup c tag with _ | k
  · rw [block_of_lookup_none hl, block_of_lookup_none (h.trans hl)]
  · rw [block_of_lookup hl, block_of_lookup (h.trans hl), hk k hl]

/-- The blocks of different tags are at different places. -/
lemma ne_of_lookup {c : BIPMOESICache} {u : AddrTag} {k : ℕ} (hj : cfg.lookup c tag = some j)
    (hk : cfg.lookup c u = some k) (hu : u ≠ tag) : k ≠ j := by
  rintro rfl
  exact hu ((isBlockOf_of_lookup hk).2.2.symm.trans (isBlockOf_of_lookup hj).2.2)

/-- Other tables and the stamp do not show. -/
lemma Reaches.tables (hcontents : b.cache.cacheContents = a.cache.cacheContents)
    (hpending : b.cache.pendingEviction = a.cache.pendingEviction) (hsent : b.sent = a.sent) :
    cfg.Reaches allow a b := by
  intro ha
  have hlines : cfg.lines b = cfg.lines a :=
    Lines.ext (block_of_cacheContents hcontents) hpending hsent
  rw [hlines]
  exact ⟨ha.tables hcontents hpending, .refl⟩

lemma Reaches.send (s : Sent) (hplain : s.isPlain)
    (hname : s.port = .remoteConnection → cfg.MayName allow s.msg.getAddress) :
    cfg.Reaches allow a (a.sendMsg s.port s.msg s.delay) :=
  fun ha => ⟨ha, .single (.send s hplain hname)⟩

lemma cacheContents_modifyBlock_self (f : BlockState → BlockState) :
    (a.modifyBlock j f).cache.cacheContents j = f (a.cache.cacheContents j) :=
  Function.update_self _ _ _

lemma cacheContents_modifyBlock_of_ne {k : ℕ} (hk : k ≠ j) (f : BlockState → BlockState) :
    (a.modifyBlock j f).cache.cacheContents k = a.cache.cacheContents k :=
  Function.update_of_ne hk _ _

/-- A block of a well-formed cache changes, but not its tag. -/
lemma WellFormed.block_modify (ha : cfg.WellFormed a.cache) (hj : cfg.lookup a.cache tag = some j)
    {f : BlockState → BlockState}
    (hf : (f (a.cache.cacheContents j)).valid = (a.cache.cacheContents j).valid ∧
      (f (a.cache.cacheContents j)).tag = (a.cache.cacheContents j).tag) :
    cfg.WellFormed (a.modifyBlock j f).cache ∧
      cfg.lookup (a.modifyBlock j f).cache = cfg.lookup a.cache ∧
      cfg.lines (a.modifyBlock j f) =
        (cfg.lines a).setBlock tag (some (f (a.cache.cacheContents j))) := by
  have hcontents : ∀ k, ((a.modifyBlock j f).cache.cacheContents k).valid =
      (a.cache.cacheContents k).valid ∧
      ((a.modifyBlock j f).cache.cacheContents k).tag = (a.cache.cacheContents k).tag := by
    intro k
    by_cases hk : k = j
    · subst hk
      rw [cacheContents_modifyBlock_self]
      exact hf
    · rw [cacheContents_modifyBlock_of_ne hk]
      exact ⟨rfl, rfl⟩
  have hlookup : cfg.lookup (a.modifyBlock j f).cache = cfg.lookup a.cache :=
    lookup_congr hcontents
  refine ⟨ha.congr hcontents fun u b hb => ⟨b, hb, rfl, rfl, rfl, id⟩, hlookup, ?_⟩
  refine Lines.ext (funext fun u => ?_) rfl rfl
  rw [Lines.block_setBlock]
  split
  · rename_i hu
    rw [hu]
    have hj' : cfg.lookup (a.modifyBlock j f).cache tag = some j := by rw [hlookup, hj]
    exact (block_of_lookup hj').trans (congrArg some (cacheContents_modifyBlock_self f))
  · rename_i hu
    refine block_congr (congrFun hlookup u) fun k hk => ?_
    exact cacheContents_modifyBlock_of_ne (ne_of_lookup hj hk hu) f

lemma Reaches.mark (hj : cfg.lookup a.cache tag = some j) {f : BlockState → BlockState}
    (hf : (f (a.cache.cacheContents j)).valid = (a.cache.cacheContents j).valid ∧
      (f (a.cache.cacheContents j)).tag = (a.cache.cacheContents j).tag)
    (hinvalid : (f (a.cache.cacheContents j)).state = .invalid ↔
      (a.cache.cacheContents j).state = .invalid)
    (hexclusive : (f (a.cache.cacheContents j)).state.isExclusive = true →
      (a.cache.cacheContents j).state.isExclusive = true) :
    cfg.Reaches allow a (a.modifyBlock j f) := by
  intro ha
  obtain ⟨hb, -, hlines⟩ := ha.block_modify hj hf
  rw [hlines]
  exact ⟨hb, .single (.mark _ (block_of_lookup hj) hinvalid hexclusive)⟩

/-- The block of a tag is erased. -/
lemma WellFormed.block_erase (ha : cfg.WellFormed a.cache) (hj : cfg.lookup a.cache tag = some j) :
    cfg.WellFormed (a.modifyBlock j fun _ => .new).cache ∧
      cfg.lines (a.modifyBlock j fun _ => .new) = (cfg.lines a).setBlock tag none := by
  have herases : Erases j a.cache (a.modifyBlock j fun _ => .new).cache :=
    { erased := by rw [cacheContents_modifyBlock_self]; rfl
      others := fun k hk => cacheContents_modifyBlock_of_ne hk _ }
  have hb := ha.erase herases rfl
  refine ⟨hb, Lines.ext (funext fun u => ?_) rfl rfl⟩
  have hlookup := ha.lookup_erase hb herases hj u
  rw [Lines.block_setBlock]
  split
  · rename_i hu
    rw [if_pos hu] at hlookup
    exact block_of_lookup_none hlookup
  · rename_i hu
    rw [if_neg hu] at hlookup
    refine block_congr hlookup fun k hk => ?_
    exact cacheContents_modifyBlock_of_ne (ne_of_lookup hj hk hu) _

/-- A block that is not in use becomes the block of a tag. -/
lemma WellFormed.block_place {c c' : BIPMOESICache} (hc : cfg.WellFormed c)
    (hc' : cfg.WellFormed c') (h : Places cfg j tag c c') :
    (∀ u, cfg.lookup c u ≠ some j → u ≠ tag → cfg.block c' u = cfg.block c u) ∧
      (∀ u, cfg.lookup c u = some j → cfg.block c' u = none) ∧
      cfg.block c' tag = some (c'.cacheContents j) := by
  have hlookup := hc.lookup_place hc' h
  refine ⟨fun u hu hne => ?_, fun u hu => ?_, ?_⟩
  · have hl := hlookup u
    rw [if_neg hne, if_neg hu] at hl
    refine block_congr hl fun k hk => h.others k ?_
    rintro rfl
    exact hu hk
  · have hl := hlookup u
    have hne : u ≠ tag := by
      rintro rfl
      rw [h.absent] at hu
      cases hu
    rw [if_neg hne, if_pos hu] at hl
    exact block_of_lookup_none hl
  · have hl := hlookup tag
    rw [if_pos rfl] at hl
    exact block_of_lookup hl

end CacheConfig

end Sesc.Cache
