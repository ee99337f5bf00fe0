import DRoole.Lib.Bytes
import DRoole.Lib.Keyed
import DRoole.Lib.Runs

/-!
# The rule store

`src/cluster/kv_store.c`: an array of at most 1024 `RuleConfig`, searched by key. The
key of a call is compared in full and stored in 64 bytes, so only its first 63 are
kept. A rule list is a pointer; `none` is `NULL`, which is also what a search that
fails returns.

As long as the keys fit, the array is a map: `KvStore.map` is what it holds, and every
call that is accepted updates that map at its key.
-/

namespace DRoole

open Lib

/-! ## The store -/

structure RuleConfig (ρ : Type) where
  key : CString
  ruleHead : Option ρ
  deriving DecidableEq

def maxKvEntries : Nat := 1024

structure KvStore (ρ : Type) where
  store : List (RuleConfig ρ)
  fits : store.length ≤ maxKvEntries
  deriving DecidableEq

variable {ρ : Type}

def kvInit : KvStore ρ := ⟨[], Nat.zero_le _⟩

/-- `kv_update_rule`, with its return code; `malloc` is whether the allocation succeeds. -/
def kvUpdateRule (s : KvStore ρ) (malloc : Bool) (key : CString) (rules : Option ρ) :
    KvStore ρ × Int :=
  if s.store.any (·.key = key) then
    ({ store := modifyFirst (·.key = key) (fun cfg => { cfg with ruleHead := rules }) s.store
       fits := by rw [length_modifyFirst]; exact s.fits }, 0)
  else if hfull : s.store.length ≥ maxKvEntries then (s, -1)
  else if !malloc then (s, -1)
  else
    ({ store := s.store ++ [⟨key.strncpy 63, rules⟩]
       fits := by rw [List.length_append]; exact Nat.lt_of_not_ge hfull }, 0)

def kvGetRules (s : KvStore ρ) (key : CString) : Option ρ :=
  (s.store.find? (·.key = key)).bind (·.ruleHead)

/-! ## The map it holds -/

namespace KvStore

/-- What the store holds under a key. -/
def map (s : KvStore ρ) (key : CString) : Option (Option ρ) :=
  (s.store.find? (·.key = key)).map (·.ruleHead)

def keys (s : KvStore ρ) : List CString := s.store.map (·.key)

theorem kvGetRules_eq (s : KvStore ρ) (key : CString) : kvGetRules s key = (s.map key).join := by
  rw [kvGetRules, map]
  cases s.store.find? (·.key = key) <;> rfl

theorem any_key_iff {s : KvStore ρ} {key : CString} :
    s.store.any (·.key = key) = true ↔ key ∈ s.keys := by
  simp [keys]

theorem map_eq_none {s : KvStore ρ} {key : CString} (h : key ∉ s.keys) : s.map key = none := by
  have hfind : s.store.find? (·.key = key) = none := by
    rw [List.find?_eq_none]
    simpa [keys] using h
  rw [map, hfind]
  rfl

theorem map_isSome {s : KvStore ρ} {key : CString} (h : key ∈ s.keys) : (s.map key).isSome := by
  obtain ⟨cfg, hcfg, rfl⟩ := List.mem_map.1 h
  rw [map, Option.isSome_map, List.find?_isSome]
  exact ⟨cfg, hcfg, decide_eq_true rfl⟩

end KvStore

/-- The key fits its field, or there is no room for another one anyway. -/
def Storable (s : KvStore ρ) (key : CString) : Prop :=
  key.bytes.length ≤ 63 ∨ s.store.length = maxKvEntries

/-- **What `kv_update_rule` can do.** -/
theorem kvUpdateRule_cases {s : KvStore ρ} {key : CString} (hkey : Storable s key)
    (rules : Option ρ) :
    (kvUpdateRule s true key rules = (s, -1) ∧ key ∉ s.keys ∧ s.store.length = maxKvEntries) ∨
    ((kvUpdateRule s true key rules).2 = 0 ∧
      (kvUpdateRule s true key rules).1.map = Function.update s.map key (some rules) ∧
      ((key ∈ s.keys ∧ (kvUpdateRule s true key rules).1.keys = s.keys) ∨
        (key ∉ s.keys ∧ s.store.length < maxKvEntries ∧
          (kvUpdateRule s true key rules).1.keys = s.keys ++ [key]))) := by
  unfold kvUpdateRule
  split
  · rename_i hknown
    have hmem := KvStore.any_key_iff.1 hknown
    have hkeep : ∀ cfg : RuleConfig ρ,
        RuleConfig.key { cfg with ruleHead := rules } = cfg.key := fun _ => rfl
    refine .inr ⟨rfl, ?_, .inl ⟨hmem, map_modifyFirst hkeep _ _⟩⟩
    funext k
    by_cases hk : k = key
    · subst hk
      rw [Function.update_self]
      obtain ⟨old, hold⟩ := Option.isSome_iff_exists.1 (KvStore.map_isSome hmem)
      obtain ⟨cfg, hcfg, -⟩ := Option.map_eq_some_iff.1 hold
      have hfind := find?_modifyFirst (k := k) hkeep s.store
      show ((modifyFirst _ _ s.store).find? _).map _ = _
      rw [hfind, hcfg]
      rfl
    · rw [Function.update_of_ne hk]
      have hfind := find?_modifyFirst_of_ne hkeep hk s.store
      show ((modifyFirst _ _ s.store).find? _).map _ = _
      rw [hfind]
      rfl
  rename_i hnew
  have hnew : key ∉ s.keys := fun h => hnew (KvStore.any_key_iff.2 h)
  split
  · rename_i hfull
    exact .inl ⟨rfl, hnew, s.fits.antisymm hfull⟩
  rename_i hroom
  have hlt : s.store.length < maxKvEntries := Nat.lt_of_not_ge hroom
  have hcut : key.strncpy 63 = key :=
    CString.strncpy_of_le (hkey.resolve_right fun hfull => hlt.ne hfull)
  refine .inr ⟨rfl, ?_, .inr ⟨hnew, hlt, ?_⟩⟩
  · funext k
    show ((s.store ++ [RuleConfig.mk (key.strncpy 63) rules]).find? _).map _ = _
    rw [hcut, List.find?_append]
    by_cases hk : k = key
    · subst hk
      have hnone := Option.map_eq_none_iff.1 (KvStore.map_eq_none hnew)
      rw [Function.update_self, hnone, Option.none_or, List.find?_cons_of_pos (by simp)]
      rfl
    · have hne : key ≠ k := fun e => hk e.symm
      rw [Function.update_of_ne hk, List.find?_cons_of_neg (by simpa using hne), List.find?_nil,
        Option.or_none]
      rfl
  · show (s.store ++ [RuleConfig.mk (key.strncpy 63) rules]).map _ = _
    rw [List.map_append, hcut]
    rfl

/-! ## Runs -/

/-- A call of `kv_update_rule` and what it returned. -/
structure KvRecord (ρ : Type) where
  key : CString
  rules : Option ρ
  ret : Int

/-- The store with the calls made since `kv_init`. -/
structure KvRun (ρ : Type) where
  store : KvStore ρ
  history : List (KvRecord ρ)

def kvStep (w : KvRun ρ) (c : CString × Option ρ) : Option (KvRun ρ) :=
  let r := kvUpdateRule w.store true c.1 c.2
  some ⟨r.1, w.history ++ [⟨c.1, c.2, r.2⟩]⟩

def kvStart : KvRun ρ := ⟨kvInit, []⟩

/-- The calls with the key that returned 0. -/
def acceptedFor (history : List (KvRecord ρ)) (key : CString) : List (KvRecord ρ) :=
  history.filter fun r => r.key = key ∧ r.ret = 0

/-- The rules of the most recent of them. -/
def latest (history : List (KvRecord ρ)) (key : CString) : Option (Option ρ) :=
  (acceptedFor history key).getLast?.map (·.rules)

/-- The keys of all calls that returned 0. -/
def storedKeys (history : List (KvRecord ρ)) : List CString :=
  (history.filter fun r => r.ret = 0).map (·.key)

theorem latest_snoc (history : List (KvRecord ρ)) (r : KvRecord ρ) :
    latest (history ++ [r]) =
      if r.ret = 0 then Function.update (latest history) r.key (some r.rules)
      else latest history := by
  funext key
  unfold latest acceptedFor
  rw [List.filter_append]
  by_cases hret : r.ret = 0
  · rw [if_pos hret]
    by_cases hkey : key = r.key
    · subst hkey
      rw [Function.update_self, List.filter_cons_of_pos (by simp [hret]), List.filter_nil,
        List.getLast?_concat]
      rfl
    · have hne : r.key ≠ key := fun e => hkey e.symm
      rw [Function.update_of_ne hkey, List.filter_cons_of_neg (by simp [hne]), List.filter_nil,
        List.append_nil]
  · rw [if_neg hret, List.filter_cons_of_neg (by simp [hret]), List.filter_nil, List.append_nil]

theorem storedKeys_snoc (history : List (KvRecord ρ)) (r : KvRecord ρ) :
    storedKeys (history ++ [r]) =
      if r.ret = 0 then storedKeys history ++ [r.key] else storedKeys history := by
  unfold storedKeys
  rw [List.filter_append, List.map_append]
  by_cases hret : r.ret = 0
  · rw [if_pos hret, List.filter_cons_of_pos (by simp [hret])]
    rfl
  · rw [if_neg hret, List.filter_cons_of_neg (by simp [hret]), List.filter_nil, List.map_nil,
      List.append_nil]

/-- **Refinement.** The store holds the latest rules of every key that was stored. -/
structure KvRun.Refines (w : KvRun ρ) : Prop where
  map_eq : w.store.map = latest w.history
  distinct : w.store.keys.Nodup
  mem_keys : ∀ key, key ∈ w.store.keys ↔ key ∈ storedKeys w.history

theorem KvRun.Refines.step {w w' : KvRun ρ} (hw : w.Refines) {c : CString × Option ρ}
    (hc : Storable w.store c.1) (hstep : kvStep w c = some w') : w'.Refines := by
  cases hstep
  rcases kvUpdateRule_cases hc c.2 with ⟨e, -, -⟩ | ⟨hret, hmap, hkeys⟩
  · have hret : (-1 : Int) ≠ 0 := by decide
    rw [e]
    refine ⟨?_, hw.distinct, fun key => ?_⟩
    · rw [latest_snoc, if_neg hret]
      exact hw.map_eq
    · rw [storedKeys_snoc, if_neg hret]
      exact hw.mem_keys key
  · refine ⟨?_, ?_, fun key => ?_⟩
    · rw [latest_snoc, if_pos hret, ← hw.map_eq]
      exact hmap
    · rcases hkeys with ⟨-, e⟩ | ⟨hnew, -, e⟩
      · exact e ▸ hw.distinct
      · exact e ▸ List.concat_eq_append ▸ List.Nodup.concat hnew hw.distinct
    · dsimp only
      rw [storedKeys_snoc, if_pos hret, List.mem_append, List.mem_singleton, ← hw.mem_keys]
      rcases hkeys with ⟨hold, e⟩ | ⟨-, -, e⟩
      · rw [e]
        exact ⟨.inl, fun h => h.elim id fun h => h ▸ hold⟩
      · rw [e, List.mem_append, List.mem_singleton]

theorem KvRun.refines_start : (kvStart : KvRun ρ).Refines :=
  ⟨rfl, List.nodup_nil, fun _ => Iff.rfl⟩

/-- The store is full exactly if 1024 distinct keys are stored. -/
theorem KvRun.Refines.card_storedKeys {w : KvRun ρ} (hw : w.Refines) :
    (storedKeys w.history).toFinset.card = w.store.store.length := by
  have hsame : (storedKeys w.history).toFinset = w.store.keys.toFinset := by
    ext key
    rw [List.mem_toFinset, List.mem_toFinset, hw.mem_keys]
  rw [hsame, List.toFinset_card_of_nodup hw.distinct, KvStore.keys, List.length_map]

/-- **The rule store is a finite map** in every run whose calls have keys of at most 63 bytes, or
find the store full. -/
theorem rule_store_is_map {calls : List (CString × Option ρ)} {w : KvRun ρ}
    (hok : Along kvStep (fun w c => Storable w.store c.1) kvStart calls)
    (hrun : run kvStep kvStart calls = some w) :
    (∀ key, kvGetRules w.store key = (latest w.history key).join) ∧
    ∀ key rules, Storable w.store key →
      (∀ other, other ≠ key →
        kvGetRules (kvUpdateRule w.store true key rules).1 other = kvGetRules w.store other) ∧
      ((kvUpdateRule w.store true key rules).2 ≠ 0 ↔
        key ∉ storedKeys w.history ∧ (storedKeys w.history).toFinset.card = 1024) ∧
      ((kvUpdateRule w.store true key rules).2 ≠ 0 →
        ∀ other, kvGetRules (kvUpdateRule w.store true key rules).1 other =
          kvGetRules w.store other) := by
  have hw : w.Refines :=
    run_induct (fun _ _ _ hw hc hstep => hw.step hc hstep) KvRun.refines_start hok hrun
  refine ⟨fun key => ?_, fun key rules hkey => ?_⟩
  · rw [KvStore.kvGetRules_eq, hw.map_eq]
  rw [hw.card_storedKeys, ← hw.mem_keys]
  rcases kvUpdateRule_cases hkey rules with ⟨e, hnew, hfull⟩ | ⟨hret, hmap, hkeys⟩
  · have hret : (-1 : Int) ≠ 0 := by decide
    rw [e]
    exact ⟨fun _ _ => rfl, ⟨fun _ => ⟨hnew, hfull⟩, fun _ => hret⟩, fun _ _ => rfl⟩
  · refine ⟨fun other hne => ?_, ⟨fun h => absurd hret h, fun ⟨hnew, hfull⟩ => ?_⟩,
      fun h => absurd hret h⟩
    · rw [KvStore.kvGetRules_eq, KvStore.kvGetRules_eq, hmap, Function.update_of_ne hne]
    · rcases hkeys with ⟨hold, -⟩ | ⟨-, hlt, -⟩
      · exact absurd hold hnew
      · exact absurd hfull hlt.ne

def longKey : CString := ⟨List.replicate 64 97, by decide⟩

def cutKey : CString := ⟨List.replicate 63 97, by decide⟩

def kvAfter (calls : List (CString × Option Nat)) : KvRun Nat :=
  (run kvStep kvStart calls).getD kvStart

/-- Two keys, one of them updated twice. -/
theorem rule_store_two_keys :
    kvGetRules (kvAfter [(cutKey, some 1), (.empty, some 2), (cutKey, some 3)]).store cutKey =
      some 3 ∧
    kvGetRules (kvAfter [(cutKey, some 1), (.empty, some 2), (cutKey, some 3)]).store cutKey =
      (latest (kvAfter [(cutKey, some 1), (.empty, some 2), (cutKey, some 3)]).history
        cutKey).join := by
  have hok : Along kvStep (fun (w : KvRun Nat) c => Storable w.store c.1) kvStart
      [(cutKey, some 1), (.empty, some 2), (cutKey, some 3)] :=
    ⟨.inl (by decide), fun _ _ => ⟨.inl (by decide), fun _ _ => ⟨.inl (by decide), fun _ _ =>
      trivial⟩⟩⟩
  have hrun : run kvStep kvStart [(cutKey, some 1), (.empty, some 2), (cutKey, some 3)] =
      some (kvAfter [(cutKey, some 1), (.empty, some 2), (cutKey, some 3)]) := rfl
  exact ⟨by decide +kernel, (rule_store_is_map hok hrun).1 cutKey⟩

/-- An accepted update of a long key cannot be read back and changes another key; a second one
takes another slot. -/
theorem rule_store_loses_long_key :
    (kvUpdateRule (kvInit : KvStore Nat) true longKey (some 1)).2 = 0 ∧
    kvGetRules (kvAfter [(longKey, some 1)]).store longKey = none ∧
    (latest (kvAfter [(longKey, some 1)]).history longKey).join = some 1 ∧
    kvGetRules (kvAfter [(longKey, some 1)]).store cutKey = some 1 ∧
    (kvAfter [(longKey, some 1), (longKey, some 2)]).store.store.length = 2 := by
  decide +kernel

end DRoole
