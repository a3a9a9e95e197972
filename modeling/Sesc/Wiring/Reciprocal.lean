import Sesc.Config.RoundTrip
import Sesc.Wiring.MemorySystem

/-!
# Connections are reciprocal

Both directions of a connection are pushed in the same turn of the loop, each with the number of
connections that the other device has had before.  So the index that a connection names at its
receiver is that of the connection back.
-/

namespace Sesc.Wiring

open Lib Config

variable {F : RealFormat}

/-! ## The devices are different -/

/-- No device is in use twice. -/
structure Distinct (m : MemorySystem) : Prop where
  nodup : m.deviceSet.Nodup
  made : ∀ d ∈ m.deviceSet, d < m.created
  submitted : ∀ n d, m.interfaceDevices.find n = some d → d < m.created ∧ d ∉ m.deviceSet
  inj : ∀ n n' d, m.interfaceDevices.find n = some d → m.interfaceDevices.find n' = some d → n = n'

lemma Distinct.new : Distinct .new where
  nodup := List.nodup_nil
  made _ h := absurd h List.not_mem_nil
  submitted _ _ h := by cases h
  inj _ _ _ h := by cases h

/-- A device is made for an interface. -/
lemma Distinct.submitInterfaceDevice {m m' : MemorySystem} {name : Name} (h : Distinct m)
    (hm' : m.submitInterfaceDevice name = .ok m') :
    Distinct m' ∧ m'.deviceSet = m.deviceSet ∧ m'.deviceConnections = m.deviceConnections := by
  obtain ⟨-, hm'⟩ := check_bind_eq_ok.1 hm'
  obtain ⟨-, hret⟩ := check_bind_eq_ok.1 hm'
  cases hret
  have hnew : ∀ n d, Function.update m.interfaceDevices.find name (some m.created) n = some d →
      n = name ∧ d = m.created ∨ m.interfaceDevices.find n = some d := by
    intro n d hd
    rw [Function.update_apply] at hd
    split at hd
    · rename_i hn
      exact .inl ⟨hn, (Option.some.inj hd).symm⟩
    · exact .inr hd
  refine ⟨⟨h.nodup, fun d hd => Nat.lt_succ_of_lt (h.made d hd), fun n d hd => ?_,
    fun n n' d hd hd' => ?_⟩, rfl, rfl⟩
  · rcases hnew n d hd with ⟨-, rfl⟩ | hold
    · exact ⟨Nat.lt_succ_self _, fun hmem => Nat.lt_irrefl _ (h.made _ hmem)⟩
    · obtain ⟨hlt, hmem⟩ := h.submitted n d hold
      exact ⟨Nat.lt_succ_of_lt hlt, hmem⟩
  · rcases hnew n d hd with ⟨hn, hdm⟩ | hold <;> rcases hnew n' d hd' with ⟨hn', hdm'⟩ | hold'
    · rw [hn, hn']
    · exact absurd hdm (Nat.ne_of_lt (h.submitted n' d hold').1)
    · exact absurd hdm' (Nat.ne_of_lt (h.submitted n d hold).1)
    · exact h.inj n n' d hold hold'

lemma Distinct.submitAll {m m' : MemorySystem} {names : List Name} (h : Distinct m)
    (hm' : names.foldlM MemorySystem.submitInterfaceDevice m = .ok m') :
    Distinct m' ∧ m'.deviceSet = m.deviceSet ∧ m'.deviceConnections = m.deviceConnections := by
  induction names generalizing m with
  | nil =>
    cases hm'
    exact ⟨h, rfl, rfl⟩
  | cons name names ih =>
    rw [List.foldlM_cons] at hm'
    obtain ⟨m₁, hm₁, hm'⟩ := bind_eq_ok.1 hm'
    obtain ⟨h₁, hdevices, hconnections⟩ := h.submitInterfaceDevice hm₁
    obtain ⟨h', hdevices', hconnections'⟩ := ih h₁ hm'
    exact ⟨h', hdevices'.trans hdevices, hconnections'.trans hconnections⟩

/-- A turn of the loop adds a device that is not in use. -/
lemma Distinct.addDevice {m m' : MemorySystem} {config : ConfigNode F} {name : Name}
    (h : Distinct m) (hm' : addDevice config m = .ok (name, m')) :
    Distinct m' ∧ m'.deviceSet.length = m.deviceSet.length + 1 ∧
      m'.deviceConnections = m.deviceConnections := by
  obtain ⟨-, hm'⟩ := check_bind_eq_ok.1 hm'
  obtain ⟨deviceType, -, hm'⟩ := bind_eq_ok.1 hm'
  obtain ⟨deviceName, -, hm'⟩ := bind_eq_ok.1 hm'
  split at hm'
  · -- an interface device
    rename_i d hd
    cases hm'
    obtain ⟨hlt, hnot⟩ := h.submitted _ d hd
    have hrest : ∀ n e, Function.update m.interfaceDevices.find name none n = some e →
        n ≠ name ∧ m.interfaceDevices.find n = some e := by
      intro n e he
      rw [Function.update_apply] at he
      split at he
      · cases he
      · rename_i hn
        exact ⟨hn, he⟩
    refine ⟨⟨?_, fun e he => ?_, fun n e he => ?_, fun n n' e he he' => ?_⟩, ?_, rfl⟩
    · rw [List.nodup_append]
      refine ⟨h.nodup, List.nodup_singleton d, fun e he e' he' => ?_⟩
      rw [List.mem_singleton.1 he']
      exact fun heq => hnot (heq ▸ he)
    · rcases List.mem_append.1 he with he | he
      · exact h.made e he
      · rw [List.mem_singleton.1 he]
        exact hlt
    · obtain ⟨hne, hold⟩ := hrest n e he
      obtain ⟨hlt', hmem⟩ := h.submitted n e hold
      refine ⟨hlt', fun hin => ?_⟩
      rcases List.mem_append.1 hin with hin | hin
      · exact hmem hin
      · rw [List.mem_singleton.1 hin] at hold
        exact hne (h.inj _ _ d hold hd)
    · exact h.inj n n' e (hrest n e he).2 (hrest n' e he').2
    · exact List.length_append
  · obtain ⟨⟨d, m₁⟩, hd, hm'⟩ := bind_eq_ok.1 hm'
    obtain ⟨-, hret⟩ := check_bind_eq_ok.1 hd
    cases hret
    cases hm'
    refine ⟨⟨?_, fun e he => ?_, fun n e he => ?_, h.inj⟩, ?_, rfl⟩
    · rw [List.nodup_append]
      refine ⟨h.nodup, List.nodup_singleton _, fun e he e' he' => ?_⟩
      rw [List.mem_singleton.1 he']
      exact Nat.ne_of_lt (h.made e he)
    · rcases List.mem_append.1 he with he | he
      · exact Nat.lt_succ_of_lt (h.made e he)
      · rw [List.mem_singleton.1 he]
        exact Nat.lt_succ_self _
    · obtain ⟨hlt, hmem⟩ := h.submitted n e he
      refine ⟨Nat.lt_succ_of_lt hlt, fun hin => ?_⟩
      rcases List.mem_append.1 hin with hin | hin
      · exact hmem hin
      · rw [List.mem_singleton.1 hin] at hlt
        exact Nat.lt_irrefl _ hlt
    · exact List.length_append

lemma Distinct.addDevices {configs : List (ConfigNode F)} {names names' : List Name}
    {m m' : MemorySystem} (h : Distinct m)
    (hm' : Wiring.addDevices configs names m = .ok (names', m')) :
    Distinct m' ∧ m'.deviceSet.length = m.deviceSet.length + configs.length ∧
      m'.deviceConnections = m.deviceConnections := by
  induction configs generalizing names m with
  | nil =>
    cases hm'
    exact ⟨h, rfl, rfl⟩
  | cons config configs ih =>
    obtain ⟨⟨name, m₁⟩, hm₁, hm'⟩ := bind_eq_ok.1 hm'
    obtain ⟨h₁, hlength, hconnections⟩ := h.addDevice hm₁
    obtain ⟨h', hlength', hconnections'⟩ := ih h₁ hm'
    refine ⟨h', ?_, hconnections'.trans hconnections⟩
    rw [hlength', hlength, List.length_cons]
    omega

/-! ## The connections of an index -/

/-- The connections of each index are counted, and each has its way back. -/
structure Reciprocal (devices : List Device) (w : Wires) : Prop where
  seen : ∀ i, w.connectionSeen i = (w.tempConSet i).length
  back : ∀ i k (c : Connection), (w.tempConSet i)[k]? = some c →
    devices[i]? = some c.fromDevice ∧ ∃ j, ∃ c' : Connection, devices[j]? = some c.toDevice ∧ (w.tempConSet j)[c.toConnectionID]? = some c' ∧
      c'.entry = c.entry ∧ c'.fromDevice = c.toDevice ∧ c'.toDevice = c.fromDevice ∧
      c'.toConnectionID = k

variable {devices : List Device} {names : List Name} {w w' : Wires}

lemma Reciprocal.new : Reciprocal devices .new where
  seen _ := rfl
  back _ _ _ h := by cases h

/-- What a turn of the loop does: each of two different devices gets a connection to the other, with
the number of connections that the other has had. -/
lemma connect_eq_ok {entry : ℕ} {d : ConnectionDescription}
    (h : connect devices names entry d w = .ok w') :
    ∃ i j di dj, i ≠ j ∧ devices[i]? = some di ∧ devices[j]? = some dj ∧
      (∀ x, w'.tempConSet x = w.tempConSet x ++
        if x = i then [⟨d.nameA, di, dj, w.connectionSeen j, d.latency, entry⟩]
        else if x = j then [⟨d.nameB, dj, di, w.connectionSeen i, d.latency, entry⟩] else []) ∧
      ∀ x, w'.connectionSeen x = w.connectionSeen x + if x = i ∨ x = j then 1 else 0 := by
  obtain ⟨i, -, h⟩ := bind_eq_ok.1 h
  obtain ⟨j, -, h⟩ := bind_eq_ok.1 h
  obtain ⟨hne, h⟩ := check_bind_eq_ok.1 h
  obtain ⟨di, hdi, h⟩ := bind_eq_ok.1 h
  obtain ⟨dj, hdj, h⟩ := bind_eq_ok.1 h
  cases h
  refine ⟨i, j, di, dj, hne, elim_error_eq_ok.1 hdi, elim_error_eq_ok.1 hdj, fun x => ?_,
    fun x => ?_⟩
  · simp only [Wires.push, Wires.see, Function.update_apply]
    by_cases hxi : x = i
    · subst hxi
      simp [hne]
    · by_cases hxj : x = j
      · subst hxj
        simp [hxi]
      · simp [hxi, hxj]
  · simp only [Wires.push, Wires.see, Function.update_apply]
    by_cases hxi : x = i
    · subst hxi
      simp [hne]
    · by_cases hxj : x = j
      · subst hxj
        simp [hxi]
      · simp [hxi, hxj]

/-- An element of a list, or the one that has been appended. -/
lemma getElem?_concat {α : Type*} {l : List α} {a b : α} {k : ℕ} (h : (l ++ [a])[k]? = some b) :
    l[k]? = some b ∨ k = l.length ∧ b = a := by
  rcases Nat.lt_or_ge k l.length with hk | hk
  · rw [List.getElem?_append_left hk] at h
    exact .inl h
  · rw [List.getElem?_append_right hk, List.getElem?_singleton] at h
    split at h
    · rename_i hzero
      exact .inr ⟨by omega, (Option.some.inj h).symm⟩
    · cases h

lemma Reciprocal.connect {entry : ℕ} {d : ConnectionDescription} (hw : Reciprocal devices w)
    (h : Wiring.connect devices names entry d w = .ok w') : Reciprocal devices w' := by
  obtain ⟨i, j, di, dj, hne, hdi, hdj, htemp, hseen⟩ := connect_eq_ok h
  -- a connection made before is still where it was
  have hkept : ∀ (x k : ℕ) (c : Connection), (w.tempConSet x)[k]? = some c → (w'.tempConSet x)[k]? = some c := by
    intro x k c hc
    rw [htemp, List.getElem?_append_left (List.getElem?_eq_some_iff.1 hc).1]
    exact hc
  have hnewi : (w'.tempConSet i)[w.connectionSeen i]? =
      some ⟨d.nameA, di, dj, w.connectionSeen j, d.latency, entry⟩ := by
    rw [htemp, if_pos rfl, hw.seen i, List.getElem?_concat_length]
  have hnewj : (w'.tempConSet j)[w.connectionSeen j]? =
      some ⟨d.nameB, dj, di, w.connectionSeen i, d.latency, entry⟩ := by
    rw [htemp, if_neg hne.symm, if_pos rfl, hw.seen j, List.getElem?_concat_length]
  refine ⟨fun x => ?_, fun x k c hc => ?_⟩
  · rw [htemp, hseen, hw.seen, List.length_append]
    by_cases hxi : x = i
    · simp [hxi]
    · by_cases hxj : x = j
      · subst hxj
        simp [hxi]
      · simp [hxi, hxj]
  · have hold : (w.tempConSet x)[k]? = some c → devices[x]? = some c.fromDevice ∧
        ∃ y, ∃ c' : Connection, devices[y]? = some c.toDevice ∧
          (w'.tempConSet y)[c.toConnectionID]? = some c' ∧ c'.entry = c.entry ∧
          c'.fromDevice = c.toDevice ∧ c'.toDevice = c.fromDevice ∧ c'.toConnectionID = k := by
      intro hc
      obtain ⟨hfrom, y, c', hto, hback, hrest⟩ := hw.back x k c hc
      exact ⟨hfrom, y, c', hto, hkept _ _ _ hback, hrest⟩
    rw [htemp] at hc
    by_cases hxi : x = i
    · subst hxi
      rw [if_pos rfl] at hc
      rcases getElem?_concat hc with hc | ⟨hk, rfl⟩
      · exact hold hc
      · exact ⟨hdi, j, _, hdj, hnewj, rfl, rfl, rfl, (hw.seen x).trans hk.symm⟩
    · rw [if_neg hxi] at hc
      by_cases hxj : x = j
      · subst hxj
        rw [if_pos rfl] at hc
        rcases getElem?_concat hc with hc | ⟨hk, rfl⟩
        · exact hold hc
        · exact ⟨hdj, i, _, hdi, hnewi, rfl, rfl, rfl, (hw.seen x).trans hk.symm⟩
      · rw [if_neg hxj, List.append_nil] at hc
        exact hold hc

lemma Reciprocal.connectAll {entry : ℕ} {l : List ConnectionDescription}
    (hw : Reciprocal devices w) (h : Wiring.connectAll devices names entry l w = .ok w') :
    Reciprocal devices w' := by
  induction l generalizing entry w with
  | nil =>
    cases h
    exact hw
  | cons d l ih =>
    obtain ⟨w₁, hw₁, h⟩ := bind_eq_ok.1 h
    exact ih (hw.connect hw₁) h

/-! ## The initialized devices -/

variable {accepts : Device → ConfigNode F → List Connection → Bool} {m m' : MemorySystem}

lemma initializeDevice_eq_ok {config : ConfigNode F} {d : Device} {l : List Connection}
    (h : initializeDevice accepts config d l m = .ok m') :
    m' = { m with deviceConnections :=
      Function.update m.deviceConnections d (m.deviceConnections d ++ l) } := by
  obtain ⟨-, h⟩ := check_bind_eq_ok.1 h
  obtain ⟨_, -, h⟩ := bind_eq_ok.1 h
  obtain ⟨_, -, h⟩ := bind_eq_ok.1 h
  obtain ⟨-, hret⟩ := check_bind_eq_ok.1 h
  cases hret
  rfl

/-- Every device gets the connections of its index. -/
lemma deviceConnections_initializeDevices {i : ℕ} {l : List (ConfigNode F × Device)}
    (h : initializeDevices accepts w i l m = .ok m') (hnodup : (l.map Prod.snd).Nodup)
    (hnone : ∀ d ∈ l.map Prod.snd, m.deviceConnections d = []) :
    (∀ k d, (l.map Prod.snd)[k]? = some d → m'.deviceConnections d = w.tempConSet (i + k)) ∧
      ∀ d, d ∉ l.map Prod.snd → m'.deviceConnections d = m.deviceConnections d := by
  induction l generalizing i m with
  | nil =>
    cases h
    exact ⟨fun _ _ hd => (by cases hd), fun _ _ => rfl⟩
  | cons p l ih =>
    obtain ⟨config, d₀⟩ := p
    obtain ⟨m₁, hm₁, h⟩ := bind_eq_ok.1 h
    have hm₁ := initializeDevice_eq_ok hm₁
    subst hm₁
    rw [List.map_cons, List.nodup_cons] at hnodup
    have hother : ∀ d, d ≠ d₀ →
        Function.update m.deviceConnections d₀ (m.deviceConnections d₀ ++ w.tempConSet i) d =
          m.deviceConnections d := fun d hd => Function.update_of_ne hd _ _
    obtain ⟨hrest, hkept⟩ := ih h hnodup.2 fun d hd =>
      (hother d fun heq => hnodup.1 (heq ▸ hd)).trans (hnone d (List.mem_cons_of_mem _ hd))
    refine ⟨fun k d hd => ?_, fun d hd => ?_⟩
    · cases k with
      | zero =>
        -- the first device is not initialized again
        cases hd
        rw [hkept d₀ hnodup.1]
        show Function.update m.deviceConnections d₀ _ d₀ = _
        rw [Function.update_self, hnone d₀ List.mem_cons_self, List.nil_append, Nat.add_zero]
      | succ k =>
        rw [hrest k d hd]
        congr 1
        omega
    · rw [List.map_cons, List.mem_cons, not_or] at hd
      rw [hkept d hd.2]
      exact hother d hd.1

/-- What an accepted configuration leads to: different devices, each with the connections of its
index, and every connection with its way back. -/
lemma start_eq_ok {submitted : List Name} {config : ConfigNode F}
    (h : start accepts submitted config = .ok m) :
    ∃ devices w, devices.Nodup ∧ Reciprocal devices w ∧
      (∀ (k : ℕ) (d : Device), devices[k]? = some d → m.deviceConnections d = w.tempConSet k) ∧
      ∀ d, d ∉ devices → m.deviceConnections d = [] := by
  obtain ⟨m₀, hm₀, h⟩ := bind_eq_ok.1 h
  obtain ⟨hdistinct, hdevices, hconnections⟩ := Distinct.new.submitAll hm₀
  obtain ⟨-, h⟩ := check_bind_eq_ok.1 h
  obtain ⟨-, h⟩ := check_bind_eq_ok.1 h
  obtain ⟨-, h⟩ := check_bind_eq_ok.1 h
  obtain ⟨⟨names, m₁⟩, hm₁, h⟩ := bind_eq_ok.1 h
  obtain ⟨hdistinct₁, hlength, hconnections₁⟩ := hdistinct.addDevices hm₁
  obtain ⟨descs, -, h⟩ := bind_eq_ok.1 h
  obtain ⟨w, hw, h⟩ := bind_eq_ok.1 h
  obtain ⟨m₂, hm₂, h⟩ := bind_eq_ok.1 h
  obtain ⟨-, hret⟩ := check_bind_eq_ok.1 h
  cases hret
  have hsnd : ((config.named "MemoryDevice".toList).zip m₁.deviceSet).map Prod.snd =
      m₁.deviceSet := by
    refine List.map_snd_zip (Nat.le_of_eq ?_)
    rw [hlength, hdevices]
    exact Nat.zero_add _
  have hnone : ∀ d, m₁.deviceConnections d = [] := by
    intro d
    rw [hconnections₁, hconnections]
    rfl
  have hnodup := hdistinct₁.nodup
  rw [← hsnd] at hnodup
  obtain ⟨hinit, hkept⟩ := deviceConnections_initializeDevices hm₂ hnodup fun d _ => hnone d
  rw [hsnd] at hinit hkept
  refine ⟨m₁.deviceSet, w, hdistinct₁.nodup, Reciprocal.new.connectAll hw, fun k d hd => ?_,
    fun d hd => (hkept d hd).trans (hnone d)⟩
  have hk := hinit k d hd
  rwa [Nat.zero_add] at hk

/-- In every memory system whose configuration is accepted: a connection in the connection set of a
device is one from the device, and the index that it names at its receiver is that of the
connection that the same entry has made back to the device. -/
theorem wiring_reciprocal {submitted : List Name} {config : ConfigNode F}
    (h : start accepts submitted config = .ok m) {d : Device} {k : ℕ} {c : Connection}
    (hc : (m.deviceConnections d)[k]? = some c) : c.fromDevice = d ∧
      ∃ c', (m.deviceConnections c.toDevice)[c.toConnectionID]? = some c' ∧ c'.entry = c.entry ∧
        c'.fromDevice = c.toDevice ∧ c'.delivery = (d, k) := by
  obtain ⟨devices, w, hnodup, hw, hset, hnone⟩ := start_eq_ok h
  by_cases hd : d ∈ devices
  · obtain ⟨i, hi⟩ := List.mem_iff_getElem?.1 hd
    rw [hset i d hi] at hc
    obtain ⟨hfrom, j, c', hto, hback, hentry, hfrom', hto', hID⟩ := hw.back i k c hc
    have hd' : c.fromDevice = d := Option.some.inj (hfrom.symm.trans hi)
    refine ⟨hd', c', ?_, hentry, hfrom', ?_⟩
    · rw [hset j _ hto]
      exact hback
    · rw [Connection.delivery, hto', hID, hd']
  · rw [hnone d hd] at hc
    cases hc

/-! ## Two connections between two devices -/

section

variable (F)

def deviceEntry (name : String) (deviceID : Int64) : ConfigNode F :=
  .root "MemoryDevice".toList
    [StringConfigNode "DeviceType".toList "TestMemory".toList,
      StringConfigNode "DeviceName".toList name.toList,
      IntConfigNode "DeviceID".toList deviceID]

def connectionEntry (deviceA deviceB nameA nameB : String) : ConfigNode F :=
  .root "Connection".toList
    [StringConfigNode "FromDevice".toList deviceA.toList,
      StringConfigNode "ToDevice".toList deviceB.toList,
      StringConfigNode "FromName".toList nameA.toList,
      StringConfigNode "ToName".toList nameB.toList,
      IntConfigNode "Latency".toList 5]

/-- Two devices, each with a connection to the other. -/
def twoDevices : ConfigNode F :=
  .root "Root".toList
    [deviceEntry F "cache" 0, deviceEntry F "memory" 1,
      connectionEntry F "cache" "memory" "RemoteConnection" "LocalConnection",
      connectionEntry F "memory" "cache" "RemoteConnection" "LocalConnection"]

end

/-- The second connection of the first device is that of the second entry, and the way back is the
second connection of the other device. -/
theorem wiring_reciprocal_twoDevices : ∃ m c,
    start (fun _ _ _ => true) [] (twoDevices integers) = .ok m ∧
    (m.deviceConnections 0)[1]? = some c ∧ c.entry = 1 ∧ c.fromDevice = 0 ∧
      ∃ c', (m.deviceConnections c.toDevice)[c.toConnectionID]? = some c' ∧
        c'.entry = c.entry ∧ c'.fromDevice = c.toDevice ∧ c'.delivery = (0, 1) := by
  have hstart : succeeds (start (fun _ _ _ => true) [] (twoDevices integers)) (fun m =>
      ((m.deviceConnections 0)[1]?).any fun c => c.entry == 1) = true := by decide +kernel
  obtain ⟨m, hm, hany⟩ := succeeds_iff.1 hstart
  obtain ⟨c, hc, hentry⟩ := (Option.any_eq_true _ _).1 hany
  exact ⟨m, c, hm, hc, beq_iff_eq.1 hentry, wiring_reciprocal hm hc⟩

end Sesc.Wiring
