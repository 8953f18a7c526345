import Mathlib.Data.List.Nodup

set_option autoImplicit false

/-! # Dictionaries and their texts

The saved state as `state.py` has it: a dictionary, and the text of the dictionary in the
state file. -/

namespace PrivacyGuard.StateFile

/-- A JSON value; a number as it is written. -/
inductive Value
  | null
  | bool (b : Bool)
  | number (literal : String)
  | string (s : String)
  | array (vs : List Value)
  | object (kvs : List (String × Value))

/-- A dictionary: its items in the order in which the keys have been added. -/
structure Dict where
  items : List (String × Value)
  nodup : (items.map Prod.fst).Nodup

namespace Dict

def get (d : Dict) (k : String) : Option Value := d.items.lookup k

/-- `d[k] = v` -/
def set (d : Dict) (k : String) (v : Value) : Dict :=
  if hk : k ∈ d.items.map Prod.fst then
    { items := d.items.map fun e => if e.1 = k then (k, v) else e
      nodup := by
        have hkeys : (d.items.map fun e => if e.1 = k then (k, v) else e).map Prod.fst =
            d.items.map Prod.fst := by
          rw [List.map_map]
          refine List.map_congr_left fun e _ => ?_
          by_cases he : e.1 = k <;> simp [he]
        rw [hkeys]
        exact d.nodup }
  else
    { items := d.items ++ [(k, v)]
      nodup := by
        rw [List.map_append]
        exact List.Nodup.append d.nodup (List.nodup_singleton k)
          (List.disjoint_singleton.mpr hk) }

/-- `d.update(kvs)` -/
def update (d : Dict) (kvs : List (String × Value)) : Dict :=
  kvs.foldl (fun d kv => d.set kv.1 kv.2) d

/-- `d.update(e)` for another dictionary. -/
def merge (d e : Dict) : Dict := d.update e.items

end Dict

/-- `DEFAULT_STATE` -/
def defaultState : Dict where
  items := [
    ("tor_kill_switch", .bool false),
    ("proxy_only_kill_switch", .bool false),
    ("ipv6_blocked", .bool false),
    ("portscan_protection", .bool false),
    ("portscan_params", .null),
    ("stealth_sysctls", .bool false),
    ("stealth_sysctls_backup", .null),
    ("ram_wipe_hook", .bool false),
    ("iptables_backup", .null),
    ("ip6tables_backup", .null),
    ("nat_iptables_backup", .null),
    ("active_proxy", .null),
    ("vpn_active", .null),
    ("gateway_mode_active", .bool false),
    ("gateway_iptables_backup", .null),
    ("gateway_ip6tables_backup", .null),
    ("gateway_config", .null),
    ("workstation_configured", .bool false),
    ("last_updated", .null)]
  nodup := by decide

namespace Dict

theorem lookup_map_set {k : String} {v : Value} (k' : String) :
    ∀ es : List (String × Value), (es.map fun e => if e.1 = k then (k, v) else e).lookup k' =
      if k' = k then (es.lookup k').map fun _ => v else es.lookup k'
  | [] => by simp
  | e :: es => by
      have ih := lookup_map_set (k := k) (v := v) k' es
      rw [List.map_cons, List.lookup_cons, List.lookup_cons, ih]
      by_cases he : e.1 = k
      · by_cases hk : k' = k
        · simp [he, hk]
        · simp [he, hk, beq_false_of_ne hk]
      · by_cases hk : k' = k
        · have hne : (k' == e.1) = false := beq_false_of_ne fun h => he (h ▸ hk)
          simp [he, hk ▸ hne, hk]
        · simp [he, hk]

theorem lookup_append_new {k : String} {v : Value} (k' : String) :
    ∀ es : List (String × Value), k ∉ es.map Prod.fst →
      (es ++ [(k, v)]).lookup k' = if k' = k then some v else es.lookup k'
  | [], _ => by
      by_cases hk : k' = k <;> simp [hk]
  | e :: es, h => by
      rw [List.map_cons, List.mem_cons, not_or] at h
      rw [List.cons_append, List.lookup_cons, List.lookup_cons, lookup_append_new k' es h.2]
      by_cases hk : k' = k
      · simp [hk, beq_false_of_ne h.1]
      · simp [hk]

theorem get_set (d : Dict) (k : String) (v : Value) (k' : String) :
    (d.set k v).get k' = if k' = k then some v else d.get k' := by
  rw [set, get, get]
  split
  · rename_i hk
    rw [lookup_map_set]
    by_cases hk' : k' = k
    · obtain ⟨w, hw⟩ : ∃ w, d.items.lookup k = some w := by
        rw [← Option.ne_none_iff_exists', Ne, List.lookup_eq_none_iff]
        intro hall
        obtain ⟨e, he, rfl⟩ := List.mem_map.mp hk
        simpa using hall e he
      simp [hk', hw]
    · simp [hk']
  · rename_i hk
    exact lookup_append_new k' d.items hk

/-- An update is seen in the last value given for a key. -/
theorem get_update_congr {d e : Dict} {k : String} (h : d.get k = e.get k)
    (kvs : List (String × Value)) : (d.update kvs).get k = (e.update kvs).get k := by
  induction kvs generalizing d e with
  | nil => exact h
  | cons kv kvs ih =>
      refine ih ?_
      rw [get_set, get_set, h]

theorem get_update_of_not_mem {k : String} {kvs : List (String × Value)}
    (hk : k ∉ kvs.map Prod.fst) (d : Dict) : (d.update kvs).get k = d.get k := by
  induction kvs generalizing d with
  | nil => rfl
  | cons kv kvs ih =>
      rw [List.map_cons, List.mem_cons, not_or] at hk
      refine (ih hk.2 _).trans ?_
      rw [get_set, if_neg hk.1]

theorem get_merge (d e : Dict) (k : String) : (d.merge e).get k = (e.get k).or (d.get k) := by
  have key : ∀ (kvs : List (String × Value)) (d : Dict), (kvs.map Prod.fst).Nodup →
      (d.update kvs).get k = (kvs.lookup k).or (d.get k) := by
    intro kvs
    induction kvs with
    | nil => exact fun d _ => rfl
    | cons kv kvs ih =>
        intro d hnodup
        rw [List.map_cons, List.nodup_cons] at hnodup
        by_cases hk : k = kv.1
        · have hrest := get_update_of_not_mem (hk ▸ hnodup.1) (d.set kv.1 kv.2)
          rw [get_set, if_pos hk] at hrest
          rw [List.lookup_cons, hk, beq_self_eq_true]
          exact hk ▸ hrest
        · rw [List.lookup_cons, beq_false_of_ne hk]
          refine (ih _ hnodup.2).trans ?_
          rw [get_set, if_neg hk]
  exact key e.items d e.nodup

/-- The same values at all keys but that of the last update. -/
def Alike (d e : Dict) : Prop := ∀ k, k ≠ "last_updated" → d.get k = e.get k

theorem Alike.refl (d : Dict) : d.Alike d := fun _ _ => rfl

theorem Alike.trans {d e f : Dict} (h : d.Alike e) (h' : e.Alike f) : d.Alike f :=
  fun k hk => (h k hk).trans (h' k hk)

theorem Alike.update {d e : Dict} (h : d.Alike e) (kvs : List (String × Value)) :
    (d.update kvs).Alike (e.update kvs) :=
  fun k hk => get_update_congr (h k hk) kvs

theorem Alike.merge {e f : Dict} (h : e.Alike f) (d : Dict) : (d.merge e).Alike (d.merge f) := by
  intro k hk
  rw [get_merge, get_merge, h k hk]

/-- Noting the time of an update. -/
theorem alike_stamped (d : Dict) (v : Value) : (d.update [("last_updated", v)]).Alike d :=
  fun _ hk => get_update_of_not_mem (by simpa using hk) d

end Dict

/-- The `json` module over texts of characters `T`. What `dumps` has written, `loads` reads
back; of any other text nothing is assumed. `nul` is the character that fills a gap in a
file. -/
structure Json (T : Type) where
  nul : T
  dumps : Dict → List T
  loads : List T → Option Dict
  loads_dumps : ∀ d, loads (dumps d) = some d

/-- What `_load_unlocked` makes of the text of the state file, if there is one. -/
def Json.stateOf {T : Type} (J : Json T) (text : Option (List T)) : Dict :=
  match text.bind J.loads with
  | some data => defaultState.merge data
  | none => defaultState

/-- The texts of `json.dumps(state, indent=2)`, line by line. -/
inductive Line
  | opening
  | item (key : String) (v : Value)
  | closing
  /-- In a gap of the file. -/
  | nul

/-- The items up to the closing line. -/
def Line.items : List Line → Option (List (String × Value))
  | [.closing] => some []
  | .item k v :: lines => (Line.items lines).map ((k, v) :: ·)
  | _ => none

theorem Line.items_written (es : List (String × Value)) :
    Line.items (es.map (fun e => .item e.1 e.2) ++ [.closing]) = some es := by
  induction es with
  | nil => rfl
  | cons e es ih =>
      rw [List.map_cons, List.cons_append, Line.items, ih]
      rfl

/-- A dictionary, one item a line. -/
def Json.lines : Json Line where
  nul := .nul
  dumps d := .opening :: (d.items.map (fun e => .item e.1 e.2) ++ [.closing])
  loads
    | .opening :: text =>
        match Line.items text with
        | some es => if h : (es.map Prod.fst).Nodup then some ⟨es, h⟩ else none
        | none => none
    | _ => none
  loads_dumps d := by
    simp only [Line.items_written]
    rw [dif_pos d.nodup]

end PrivacyGuard.StateFile
