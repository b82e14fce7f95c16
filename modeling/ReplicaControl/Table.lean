/-!
# Tables in key order

* `Table κ α` — finitely many values under distinct keys, listed in strictly increasing key order.
  The order is part of the type, so two tables with the same entries are equal and every listing of
  a table is already sorted.
* `get?`, `insert`, `erase`, `filter`, `mapValues`, `adjust`, `merge`, `ofList` — the operations.
  Each one is described by what `get?` answers afterwards (`get?_insert`, `get?_erase`, …).
* `mem_entries_iff` — the entries are exactly the pairs that `get?` finds; `mem_keys_iff`,
  `nodup_keys`: the keys are listed once each.
* `Table.ext_get?` — a table is determined by its answers.
* `entries_insert`, `entries_insert_last` — where an inserted value stands in the listing.
-/

namespace ReplicaControl

variable {κ : Type} {α β : Type}

/-- Entries in strictly increasing key order. -/
abbrev KeysIncrease [Ord κ] (entries : List (κ × α)) : Prop :=
  entries.Pairwise fun a b => compare a.1 b.1 = .lt

/-- A finite table whose entries are listed in strictly increasing key order. -/
structure Table (κ : Type) (α : Type) [Ord κ] where
  entries : List (κ × α)
  increasing : KeysIncrease entries

namespace Table

section Lists

variable [Ord κ]

/-- The value listed under a key. -/
def lookup (k : κ) : List (κ × α) → Option α
  | [] => none
  | (k', v) :: rest => if compare k k' = .eq then some v else lookup k rest

/-- Puts a value in its place in the order, over the value that its key had. -/
def place (k : κ) (v : α) : List (κ × α) → List (κ × α)
  | [] => [(k, v)]
  | (k', v') :: rest =>
    match compare k k' with
    | .lt => (k, v) :: (k', v') :: rest
    | .eq => (k, v) :: rest
    | .gt => (k', v') :: place k v rest

theorem mem_place {k : κ} {v : α} {e : κ × α} {entries : List (κ × α)} (h : e ∈ place k v entries) :
    e = (k, v) ∨ e ∈ entries := by
  induction entries with
  | nil => simpa [place] using h
  | cons x rest ih =>
    obtain ⟨k', v'⟩ := x
    cases hc : compare k k' <;> simp only [place, hc, List.mem_cons] at h ⊢ <;> grind

theorem lookup_eq_none {k : κ} {entries : List (κ × α)}
    (h : ∀ e ∈ entries, compare k e.1 ≠ .eq) : lookup k entries = none := by
  induction entries with
  | nil => rfl
  | cons x rest ih =>
    obtain ⟨k', v'⟩ := x
    simp only [lookup, h (k', v') (by simp), if_false]
    exact ih fun e he => h e (by simp [he])

variable [Std.LawfulEqOrd κ]

theorem lookup_place_self (k : κ) (v : α) (entries : List (κ × α)) :
    lookup k (place k v entries) = some v := by
  induction entries with
  | nil => simp [place, lookup]
  | cons x rest ih =>
    obtain ⟨k', v'⟩ := x
    cases hc : compare k k' <;> simp [place, hc, lookup, ih]

theorem lookup_place_of_ne {k j : κ} (hne : j ≠ k) (v : α) (entries : List (κ × α)) :
    lookup j (place k v entries) = lookup j entries := by
  induction entries with
  | nil => simp [place, lookup, hne]
  | cons x rest ih =>
    obtain ⟨k', v'⟩ := x
    cases hc : compare k k' with
    | lt => simp [place, hc, lookup, hne]
    | eq =>
      obtain rfl := Std.LawfulEqCmp.eq_of_compare hc
      simp [place, lookup, hne]
    | gt => simp [place, hc, lookup, ih]

theorem mem_iff_lookup {k : κ} {v : α} {entries : List (κ × α)} (h : KeysIncrease entries) :
    (k, v) ∈ entries ↔ lookup k entries = some v := by
  induction entries with
  | nil => simp [lookup]
  | cons x rest ih =>
    obtain ⟨k', v'⟩ := x
    obtain ⟨hx, hrest⟩ := List.pairwise_cons.1 h
    by_cases hk : k = k'
    · subst hk
      have : (k, v) ∉ rest := fun hm => by
        have := hx _ hm
        simp at this
      simp [lookup, this, eq_comm]
    · simp [lookup, hk, ih hrest]

theorem lookup_filter (p : κ → α → Bool) (k : κ) {entries : List (κ × α)}
    (h : KeysIncrease entries) :
    lookup k (entries.filter fun e => p e.1 e.2) = (lookup k entries).filter (p k) := by
  induction entries with
  | nil => rfl
  | cons x rest ih =>
    obtain ⟨k', v'⟩ := x
    obtain ⟨hx, hrest⟩ := List.pairwise_cons.1 h
    have ih := ih hrest
    by_cases hk : k = k'
    · subst hk
      have hnone : lookup k rest = none :=
        lookup_eq_none fun e he hc => by
          obtain rfl := Std.LawfulEqCmp.eq_of_compare hc
          have := hx _ he
          simp at this
      cases hp : p k v' <;> simp [hp, lookup, ih, hnone, Option.filter]
    · cases hp : p k' v' <;> simp [hp, lookup, hk, ih]

theorem lookup_map (f : κ → α → β) (k : κ) (entries : List (κ × α)) :
    lookup k (entries.map fun e => (e.1, f e.1 e.2)) = (lookup k entries).map (f k) := by
  induction entries with
  | nil => rfl
  | cons x rest ih =>
    obtain ⟨k', v'⟩ := x
    by_cases hk : compare k k' = .eq
    · obtain rfl := Std.LawfulEqCmp.eq_of_compare hk
      simp [lookup]
    · simp [lookup, hk, ih]

omit [Std.LawfulEqOrd κ]

variable [Std.TransOrd κ]

theorem increasing_place (k : κ) (v : α) {entries : List (κ × α)} (h : KeysIncrease entries) :
    KeysIncrease (place k v entries) := by
  induction entries with
  | nil => simp [place]
  | cons x rest ih =>
    obtain ⟨k', v'⟩ := x
    obtain ⟨hx, hrest⟩ := List.pairwise_cons.1 h
    cases hc : compare k k' with
    | lt =>
      simp only [place, hc]
      refine List.pairwise_cons.2 ⟨fun e he => ?_, h⟩
      rcases List.mem_cons.1 he with rfl | he
      · exact hc
      · exact Std.TransCmp.lt_trans hc (hx e he)
    | eq =>
      simp only [place, hc]
      exact List.pairwise_cons.2
        ⟨fun e he => Std.TransCmp.lt_of_eq_of_lt hc (hx e he), hrest⟩
    | gt =>
      simp only [place, hc]
      refine List.pairwise_cons.2 ⟨fun e he => ?_, ih hrest⟩
      rcases mem_place he with rfl | he
      · exact Std.OrientedCmp.lt_of_gt hc
      · exact hx e he

end Lists

variable [Ord κ]

/-- The table without entries. -/
def empty : Table κ α := ⟨[], .nil⟩

instance : EmptyCollection (Table κ α) := ⟨empty⟩

instance : Inhabited (Table κ α) := ⟨empty⟩

instance [DecidableEq κ] [DecidableEq α] : DecidableEq (Table κ α) := fun s t =>
  decidable_of_iff (s.entries = t.entries)
    ⟨fun h => by cases s; cases t; simp_all, fun h => h ▸ rfl⟩

/-- The value under a key. -/
def get? (t : Table κ α) (k : κ) : Option α := lookup k t.entries

/-- Whether a key has a value. -/
def contains (t : Table κ α) (k : κ) : Bool := (t.get? k).isSome

/-- The keys in increasing order. -/
def keys (t : Table κ α) : List κ := t.entries.map (·.1)

/-- The values in the order of their keys. -/
def values (t : Table κ α) : List α := t.entries.map (·.2)

/-- The number of entries. -/
def size (t : Table κ α) : Nat := t.entries.length

/-- Whether there are no entries. -/
def isEmpty (t : Table κ α) : Bool := t.entries.isEmpty

/-- Keeps the entries that a test accepts. -/
def filter (t : Table κ α) (p : κ → α → Bool) : Table κ α :=
  ⟨t.entries.filter fun e => p e.1 e.2, t.increasing.filter _⟩

/-- Replaces every value by a function of it and its key. -/
def mapValues (t : Table κ α) (f : κ → α → β) : Table κ β :=
  ⟨t.entries.map fun e => (e.1, f e.1 e.2), List.pairwise_map.2 t.increasing⟩

/-- Changes the value under one key, if it has one. -/
def adjust (t : Table κ α) (k : κ) (f : α → α) : Table κ α :=
  t.mapValues fun j v => if compare k j = .eq then f v else v

/-- Drops the entry under a key. -/
def erase (t : Table κ α) (k : κ) : Table κ α :=
  t.filter fun j _ => compare k j != .eq

@[simp] theorem get?_empty (k : κ) : (empty : Table κ α).get? k = none := rfl

@[simp] theorem contains_eq_isSome (t : Table κ α) (k : κ) : t.contains k = (t.get? k).isSome := rfl

section Answers

variable [Std.LawfulEqOrd κ]

theorem mem_entries_iff (t : Table κ α) {k : κ} {v : α} :
    (k, v) ∈ t.entries ↔ t.get? k = some v :=
  mem_iff_lookup t.increasing

theorem nodup_keys (t : Table κ α) : t.keys.Nodup := by
  refine List.pairwise_map.2 (t.increasing.imp fun {a b} hlt heq => ?_)
  rw [heq] at hlt
  simp at hlt

theorem mem_keys_iff {t : Table κ α} {k : κ} : k ∈ t.keys ↔ ∃ v, t.get? k = some v := by
  rw [keys, List.mem_map]
  constructor
  · rintro ⟨⟨k, v⟩, hmem, rfl⟩
    exact ⟨v, t.mem_entries_iff.1 hmem⟩
  · rintro ⟨v, hget⟩
    exact ⟨(k, v), t.mem_entries_iff.2 hget, rfl⟩

/-- A table is empty if and only if no key has a value. -/
theorem isEmpty_iff {t : Table κ α} : t.isEmpty = true ↔ ∀ k, t.get? k = none := by
  rw [isEmpty, List.isEmpty_iff]
  constructor
  · intro h k
    rw [get?, h]
    rfl
  · intro h
    refine List.eq_nil_iff_forall_not_mem.2 fun e he => ?_
    cases (h e.1).symm.trans ((t.mem_entries_iff).1 he)

theorem get?_filter (t : Table κ α) (p : κ → α → Bool) (k : κ) :
    (t.filter p).get? k = (t.get? k).filter (p k) :=
  lookup_filter p k t.increasing

theorem get?_mapValues (t : Table κ α) (f : κ → α → β) (k : κ) :
    (t.mapValues f).get? k = (t.get? k).map (f k) :=
  lookup_map f k t.entries

@[simp] theorem get?_erase_self (t : Table κ α) (k : κ) : (t.erase k).get? k = none := by
  rw [erase, get?_filter]
  cases t.get? k <;> simp [Option.filter]

theorem get?_erase_of_ne (t : Table κ α) {k j : κ} (h : j ≠ k) : (t.erase k).get? j = t.get? j := by
  rw [erase, get?_filter]
  cases t.get? j <;> simp [Option.filter, Ne.symm h]

theorem get?_adjust [DecidableEq κ] (t : Table κ α) (k j : κ) (f : α → α) :
    (t.adjust k f).get? j = if j = k then (t.get? k).map f else t.get? j := by
  rw [adjust, get?_mapValues]
  by_cases h : j = k
  · subst h; simp
  · cases t.get? j <;> simp [h, Ne.symm h]

end Answers

variable [Std.TransOrd κ]

/-- Puts a value under a key, over the value it had. -/
def insert (t : Table κ α) (k : κ) (v : α) : Table κ α :=
  ⟨place k v t.entries, increasing_place k v t.increasing⟩

/-- The table of a list of entries; of two entries under one key the later one stays. -/
def ofList (entries : List (κ × α)) : Table κ α :=
  entries.foldl (fun t e => t.insert e.1 e.2) empty

/-- Goes through the entries of `t` and gives each of its keys in `s` the value that `f` makes of
the value there, if any, and the value in `t`. -/
def merge (f : Option α → β → α) (s : Table κ α) (t : Table κ β) : Table κ α :=
  t.entries.foldl (fun s e => s.insert e.1 (f (s.get? e.1) e.2)) s

/-- A key above all others comes last. -/
theorem entries_insert_last {t : Table κ α} {k : κ} (h : ∀ e ∈ t.entries, compare e.1 k = .lt)
    (v : α) : (t.insert k v).entries = t.entries ++ [(k, v)] := by
  show place k v t.entries = _
  generalize t.entries = entries at h
  induction entries with
  | nil => rfl
  | cons e rest ih =>
    have hgt : compare k e.1 = .gt := Std.OrientedCmp.gt_of_lt (h e List.mem_cons_self)
    simp only [place, hgt, List.cons_append,
      ih fun e' he' => h e' (List.mem_cons_of_mem e he')]

variable [Std.LawfulEqOrd κ]

@[simp] theorem get?_insert_self (t : Table κ α) (k : κ) (v : α) : (t.insert k v).get? k = some v :=
  lookup_place_self k v t.entries

theorem get?_insert_of_ne (t : Table κ α) {k j : κ} (h : j ≠ k) (v : α) :
    (t.insert k v).get? j = t.get? j :=
  lookup_place_of_ne h v t.entries

theorem get?_insert [DecidableEq κ] (t : Table κ α) (k j : κ) (v : α) :
    (t.insert k v).get? j = if j = k then some v else t.get? j := by
  split
  · subst j; simp
  · exact t.get?_insert_of_ne ‹_› v

theorem get?_merge (f : Option α → β → α) (s : Table κ α) (t : Table κ β) (k : κ) :
    (s.merge f t).get? k =
      match t.get? k with
      | none => s.get? k
      | some v => some (f (s.get? k) v) := by
  obtain ⟨entries, h⟩ := t
  simp only [merge, get?]
  induction entries generalizing s with
  | nil => rfl
  | cons x rest ih =>
    obtain ⟨j, w⟩ := x
    obtain ⟨hx, hrest⟩ := List.pairwise_cons.1 h
    have ih := ih (s.insert j (f (s.get? j) w)) hrest
    simp only [List.foldl_cons, lookup]
    simp only [get?] at ih ⊢
    rw [ih]
    by_cases hk : k = j
    · subst hk
      have hnone : lookup k rest = none :=
        lookup_eq_none fun e he hc => by
          obtain rfl := Std.LawfulEqCmp.eq_of_compare hc
          have := hx _ he
          simp at this
      have hself := s.get?_insert_self k (f (s.get? k) w)
      simp only [get?] at hself
      simp [hnone, hself]
    · have hother := s.get?_insert_of_ne hk (f (s.get? j) w)
      simp only [get?] at hother
      simp [hk, hother]

theorem ext_get? {s t : Table κ α} (h : ∀ k, s.get? k = t.get? k) : s = t := by
  have hmem : ∀ e, e ∈ s.entries ↔ e ∈ t.entries := fun ⟨k, v⟩ => by
    rw [s.mem_entries_iff, t.mem_entries_iff, h]
  have hnodup : ∀ u : Table κ α, u.entries.Nodup := fun u =>
    u.increasing.imp fun {a b} hab he => by simp [he] at hab
  have hperm : s.entries.Perm t.entries :=
    (List.perm_ext_iff_of_nodup (hnodup s) (hnodup t)).2 hmem
  have : s.entries = t.entries :=
    hperm.eq_of_pairwise
      (fun a b _ _ hab hba => by
        have := Std.TransCmp.lt_trans hab hba
        simp at this)
      s.increasing t.increasing
  cases s; cases t; simp_all

/-! ### Entries and listings after an insertion -/

theorem place_of_lookup {k : κ} {v : α} {entries : List (κ × α)} (h : KeysIncrease entries)
    (hl : lookup k entries = some v) :
    ∃ before after, entries = before ++ (k, v) :: after ∧
      ∀ v', place k v' entries = before ++ (k, v') :: after := by
  induction entries with
  | nil => cases hl
  | cons e rest ih =>
    obtain ⟨k', u⟩ := e
    obtain ⟨hfirst, hrest⟩ := List.pairwise_cons.1 h
    cases hc : compare k k' with
    | eq =>
      obtain rfl := Std.LawfulEqCmp.eq_of_compare hc
      simp only [lookup, hc, if_true] at hl
      cases hl
      exact ⟨[], rest, rfl, fun v' => by simp [place]⟩
    | gt =>
      simp only [lookup, hc] at hl
      obtain ⟨before, after, hsplit, hplace⟩ := ih hrest hl
      refine ⟨(k', u) :: before, after, ?_, fun v' => ?_⟩
      · rw [hsplit, List.cons_append]
      · simp only [place, hc, hplace, List.cons_append]
    | lt =>
      simp only [lookup, hc] at hl
      have hlt := hfirst _ ((mem_iff_lookup hrest).2 hl)
      rw [Std.OrientedCmp.gt_of_lt hlt] at hc
      cases hc

/-- A value that takes the place of another one takes its place in the listing. -/
theorem entries_insert {t : Table κ α} {k : κ} {v : α} (h : t.get? k = some v) :
    ∃ before after, t.entries = before ++ (k, v) :: after ∧
      ∀ v', (t.insert k v').entries = before ++ (k, v') :: after :=
  place_of_lookup t.increasing h

theorem values_insert {t : Table κ α} {k : κ} {v : α} (h : t.get? k = some v) :
    ∃ before after, t.values = before ++ v :: after ∧
      ∀ v', (t.insert k v').values = before ++ v' :: after := by
  obtain ⟨before, after, hsplit, hplace⟩ := entries_insert h
  refine ⟨before.map (·.2), after.map (·.2), ?_, fun v' => ?_⟩
  · rw [values, hsplit, List.map_append, List.map_cons]
  · rw [values, hplace, List.map_append, List.map_cons]

theorem get?_foldl_insert_map [DecidableEq κ] (f : α → β) (entries : List (κ × α)) (k : κ)
    {t : Table κ α} {t' : Table κ β} (h : t'.get? k = (t.get? k).map f) :
    ((entries.map fun e => (e.1, f e.2)).foldl (fun t e => t.insert e.1 e.2) t').get? k =
      ((entries.foldl (fun t e => t.insert e.1 e.2) t).get? k).map f := by
  induction entries generalizing t t' with
  | nil => exact h
  | cons e rest ih =>
    refine ih ?_
    rw [get?_insert, get?_insert, h]
    split <;> rfl

/-- A table of changed values holds the changed values. -/
theorem get?_ofList_map [DecidableEq κ] (f : α → β) (entries : List (κ × α)) (k : κ) :
    (ofList (entries.map fun e => (e.1, f e.2))).get? k = ((ofList entries).get? k).map f :=
  get?_foldl_insert_map f entries k rfl

/-- A table holds listed values only. -/
theorem mem_of_get?_ofList [DecidableEq κ] {entries : List (κ × α)} {k : κ} {v : α}
    (h : (ofList entries).get? k = some v) : (k, v) ∈ entries := by
  suffices ∀ t : Table κ α, (entries.foldl (fun t e => t.insert e.1 e.2) t).get? k = some v →
      (k, v) ∈ entries ∨ t.get? k = some v from (this empty h).resolve_right nofun
  clear h
  induction entries with
  | nil => exact fun t h => .inr h
  | cons e rest ih =>
    intro t ht
    rcases ih _ ht with hmem | hget
    · exact .inl (List.mem_cons_of_mem e hmem)
    · rw [get?_insert] at hget
      split at hget
      · rename_i hk
        rw [hk, ← Option.some.inj hget]
        exact .inl List.mem_cons_self
      · exact .inr hget

/-- A table holds a value under every listed key, and under no other one. -/
theorem contains_ofList [DecidableEq κ] {entries : List (κ × α)} {k : κ} :
    (ofList entries).contains k = true ↔ k ∈ entries.map (·.1) := by
  suffices ∀ t : Table κ α, (entries.foldl (fun t e => t.insert e.1 e.2) t).contains k = true ↔
      k ∈ entries.map (·.1) ∨ t.contains k = true from
    (this empty).trans (or_iff_left Bool.false_ne_true)
  induction entries with
  | nil => exact fun t => by simp
  | cons e rest ih =>
    intro t
    rw [List.foldl_cons, ih, List.map_cons, List.mem_cons, contains_eq_isSome, get?_insert]
    by_cases hk : k = e.1 <;> simp [hk]

theorem isEmpty_ofList [DecidableEq κ] {entries : List (κ × α)} :
    (ofList entries).isEmpty = true ↔ entries = [] := by
  rw [isEmpty_iff]
  constructor
  · intro h
    refine List.eq_nil_iff_forall_not_mem.2 fun e he => ?_
    have hc := contains_ofList.2 (List.mem_map_of_mem (f := Prod.fst) he)
    rw [contains_eq_isSome, h] at hc
    cases hc
  · rintro rfl k
    rfl

end Table

end ReplicaControl
