/-
  EcuTelemetry.Lib.Dict

  Python dictionaries as association lists in insertion order.  Keys are
  compared with `==`, which need not be lawful (a NaN is not equal to itself);
  the laws hold at an `Exact` key, one that is `==` to itself alone.
-/

import Mathlib.Data.List.Basic

namespace EcuTelemetry

/-- A dictionary, oldest key first. -/
abbrev Dict (κ υ : Type) := List (κ × υ)

namespace Dict

variable {κ υ : Type} [BEq κ]

/-- `d.get(k)`. -/
def get? (d : Dict κ υ) (k : κ) : Option υ :=
  match d with
  | [] => none
  | (x, v) :: d => if x == k then some v else get? d k

/-- `k in d`. -/
def contains (d : Dict κ υ) (k : κ) : Bool := (get? d k).isSome

/-- `d[k] = v`: an old key keeps its place. -/
def set (d : Dict κ υ) (k : κ) (v : υ) : Dict κ υ :=
  match d with
  | [] => [(k, v)]
  | (x, w) :: d => if x == k then (x, v) :: d else (x, w) :: set d k v

/-- `d.pop(k, None)`. -/
def pop (d : Dict κ υ) (k : κ) : Dict κ υ :=
  match d with
  | [] => []
  | (x, w) :: d => if x == k then d else (x, w) :: pop d k

/-- `d.update(e)`. -/
def update (d e : Dict κ υ) : Dict κ υ := e.foldl (fun d kv => set d kv.1 kv.2) d

/-- A key that `==` singles out. -/
def Exact (k : κ) : Prop := ∀ x : κ, (x == k) = true ↔ x = k

theorem Exact.of_lawful [LawfulBEq κ] (k : κ) : Exact k := fun _ => beq_iff_eq

/-- Every key occurs once. -/
def Distinct (d : Dict κ υ) : Prop := (d.map Prod.fst).Nodup

/-- A key that is not there is not removed. -/
theorem pop_of_not_contains {d : Dict κ υ} {k : κ} (h : contains d k = false) : pop d k = d := by
  induction d with
  | nil => rfl
  | cons e d ih =>
    obtain ⟨x, w⟩ := e
    by_cases hx : (x == k) = true
    · rw [contains, get?, if_pos hx] at h
      cases h
    · have hrest : contains d k = false := by
        rw [contains, get?, if_neg hx] at h
        exact h
      rw [pop, if_neg hx, ih hrest]

section Exact

variable {d : Dict κ υ} {k k' : κ} {v : υ}

/-- A value that is found is in the dictionary. -/
theorem get?_mem (hk : Exact k) (h : get? d k = some v) : (k, v) ∈ d := by
  induction d with
  | nil => exact absurd h (by simp [get?])
  | cons e d ih =>
    obtain ⟨x, w⟩ := e
    rw [get?] at h
    split at h
    · next hx =>
      cases h
      rw [(hk x).mp hx]
      exact List.mem_cons_self
    · exact List.mem_cons_of_mem _ (ih h)

/-- And conversely, where no key comes twice. -/
theorem get?_of_mem (hk : Exact k) (hd : Distinct d) (h : (k, v) ∈ d) : get? d k = some v := by
  induction d with
  | nil => exact absurd h List.not_mem_nil
  | cons e d ih =>
    obtain ⟨x, w⟩ := e
    obtain ⟨hx, hd⟩ := List.nodup_cons.mp hd
    rw [get?]
    rcases List.mem_cons.mp h with heq | hmem
    · cases heq
      rw [if_pos ((hk k).mpr rfl)]
    · have hne : ¬ (x == k) = true := fun he => by
        rw [(hk x).mp he] at hx
        exact hx (List.mem_map.mpr ⟨(k, v), hmem, rfl⟩)
      rw [if_neg hne]
      exact ih hd hmem

/-- The key that was set. -/
theorem get?_set_self (hk : Exact k) : get? (set d k v) k = some v := by
  induction d with
  | nil => rw [set, get?, if_pos ((hk k).mpr rfl)]
  | cons e d ih =>
    obtain ⟨x, w⟩ := e
    rw [set]
    split
    · next hx => rw [get?, if_pos hx]
    · next hx => rw [get?, if_neg hx, ih]

/-- Any other key. -/
theorem get?_set_ne (hk : Exact k) (hk' : Exact k') (hne : k ≠ k') :
    get? (set d k v) k' = get? d k' := by
  have hne' : ¬ (k == k') = true := fun h => hne ((hk' k).mp h)
  induction d with
  | nil => simp [set, get?, hne']
  | cons e d ih =>
    obtain ⟨x, w⟩ := e
    rw [set]
    split
    · next hx =>
      rw [(hk x).mp hx, get?, get?, if_neg hne', if_neg hne']
    · rw [get?, get?, ih]

/-- The key that goes need not be one that `==` singles out. -/
theorem get?_pop_of_not_beq (hk' : Exact k') (hne : ¬ (k' == k) = true) :
    get? (pop d k) k' = get? d k' := by
  induction d with
  | nil => rfl
  | cons e d ih =>
    obtain ⟨x, w⟩ := e
    rw [pop]
    split
    · next hx =>
      have hx' : ¬ (x == k') = true := fun h => hne ((hk' x).mp h ▸ hx)
      rw [get?, if_neg hx']
    · rw [get?, get?, ih]

theorem get?_pop_ne (hk : Exact k) (hk' : Exact k') (hne : k ≠ k') :
    get? (pop d k) k' = get? d k' :=
  get?_pop_of_not_beq hk' fun h => hne ((hk k').mp h).symm

theorem get?_eq_none_of_not_mem (hk : Exact k) (h : k ∉ d.map Prod.fst) : get? d k = none := by
  induction d with
  | nil => rfl
  | cons e d ih =>
    obtain ⟨x, w⟩ := e
    obtain ⟨hx, hd⟩ := not_or.mp (mt List.mem_cons.mpr h)
    rw [get?, if_neg fun he => hx ((hk x).mp he).symm, ih hd]

/-- A key that was removed is not found. -/
theorem get?_pop_self (hk : Exact k) (hd : Distinct d) : get? (pop d k) k = none := by
  induction d with
  | nil => rfl
  | cons e d ih =>
    obtain ⟨x, w⟩ := e
    obtain ⟨hx, hd⟩ := List.nodup_cons.mp hd
    rw [pop]
    split
    · next he =>
      rw [(hk x).mp he] at hx
      exact get?_eq_none_of_not_mem hk hx
    · next he => rw [get?, if_neg he, ih hd]

/-- The keys after a write. -/
theorem mem_keys_set (hk : Exact k) {x : κ} :
    x ∈ (set d k v).map Prod.fst ↔ x = k ∨ x ∈ d.map Prod.fst := by
  induction d with
  | nil => simp [set]
  | cons e d ih =>
    obtain ⟨y, w⟩ := e
    rw [set]
    split
    · next hy =>
      have := (hk y).mp hy
      subst this
      simp
    · simp only [List.map_cons, List.mem_cons, ih]
      tauto

/-- The entries after a write. -/
theorem mem_set (hk : Exact k) {e : κ × υ} (h : e ∈ set d k v) : e = (k, v) ∨ e ∈ d := by
  induction d with
  | nil => exact .inl (List.mem_singleton.mp h)
  | cons e' d ih =>
    obtain ⟨y, w⟩ := e'
    rw [set] at h
    split at h
    · next hy =>
      rw [(hk y).mp hy] at h
      exact (List.mem_cons.mp h).imp id (List.mem_cons_of_mem _)
    · rcases List.mem_cons.mp h with rfl | hmem
      · exact .inr List.mem_cons_self
      · exact (ih hmem).imp id (List.mem_cons_of_mem _)

/-- A write keeps the keys distinct. -/
theorem Distinct.set (hk : Exact k) (hd : Distinct d) : Distinct (set d k v) := by
  induction d with
  | nil => simp [Dict.set, Distinct]
  | cons e d ih =>
    obtain ⟨y, w⟩ := e
    obtain ⟨hy, hd'⟩ := List.nodup_cons.mp hd
    rw [Dict.set]
    split
    · exact hd
    · next hne =>
      refine List.nodup_cons.mpr ⟨?_, ih hd'⟩
      rw [mem_keys_set hk]
      rintro (rfl | h)
      · exact hne ((hk y).mpr rfl)
      · exact hy h

/-- A removal keeps the order of the rest. -/
theorem pop_sublist : (pop d k).Sublist d := by
  induction d with
  | nil => exact List.Sublist.slnil
  | cons e d ih =>
    obtain ⟨y, w⟩ := e
    rw [pop]
    split
    · exact List.sublist_cons_self _ _
    · exact ih.cons_cons _

theorem Distinct.pop (hd : Distinct d) : Distinct (pop d k) :=
  hd.sublist (pop_sublist.map _)

end Exact

/-- An old key that is `==` to the new one stays. -/
theorem fst_mem_set {κ υ : Type} [BEq κ] {d : Dict κ υ} {k : κ} {v : υ} {e : κ × υ}
    (h : e ∈ set d k v) : e.1 = k ∨ ∃ e' ∈ d, e.1 = e'.1 := by
  induction d with
  | nil => exact .inl (congrArg Prod.fst (List.mem_singleton.mp h))
  | cons x d ih =>
    rw [set] at h
    split at h
    · rcases List.mem_cons.mp h with rfl | h
      · exact .inr ⟨x, List.mem_cons_self, rfl⟩
      · exact .inr ⟨e, List.mem_cons_of_mem _ h, rfl⟩
    · rcases List.mem_cons.mp h with rfl | h
      · exact .inr ⟨x, List.mem_cons_self, rfl⟩
      · obtain h | ⟨e', he', h⟩ := ih h
        · exact .inl h
        · exact .inr ⟨e', List.mem_cons_of_mem _ he', h⟩

/-! ## Updates -/

section Update

variable {κ υ : Type} [BEq κ] [LawfulBEq κ] {d e : Dict κ υ}

omit [LawfulBEq κ] in
/-- A write keeps the order of the keys; a new one goes to the end. -/
theorem keys_prefix_set (d : Dict κ υ) (k : κ) (v : υ) :
    d.map Prod.fst <+: (set d k v).map Prod.fst := by
  induction d with
  | nil => exact List.nil_prefix
  | cons x d ih =>
    rw [set]
    split
    · exact List.prefix_refl _
    · exact List.prefix_cons_inj x.1 |>.mpr ih

omit [LawfulBEq κ] in
theorem keys_prefix_update (d e : Dict κ υ) : d.map Prod.fst <+: (update d e).map Prod.fst := by
  induction e generalizing d with
  | nil => exact List.prefix_refl _
  | cons x e ih => exact (keys_prefix_set d x.1 x.2).trans (ih (set d x.1 x.2))

theorem Distinct.update (hd : Distinct d) (e : Dict κ υ) : Distinct (update d e) := by
  induction e generalizing d with
  | nil => exact hd
  | cons x e ih => exact ih (hd.set (.of_lawful x.1))

/-- A key behind those of `p`. -/
theorem set_append {p d : Dict κ υ} {k : κ} (hk : k ∉ p.map Prod.fst) (v : υ) :
    set (p ++ d) k v = p ++ set d k v := by
  induction p with
  | nil => rfl
  | cons x p ih =>
    obtain ⟨hx, hp⟩ := not_or.mp (mt List.mem_cons.mpr hk)
    rw [List.cons_append, set, if_neg (by simpa using Ne.symm hx), ih hp]
    rfl

/-- Each key of `e` replaces the one in its place, or is new. -/
theorem update_append {p : Dict κ υ} (hkeys : d.map Prod.fst <+: e.map Prod.fst)
    (hdist : Distinct (p ++ e)) : update (p ++ d) e = p ++ e := by
  induction e generalizing p d with
  | nil =>
    have hd : d = [] := List.map_eq_nil_iff.mp (List.prefix_nil.mp hkeys)
    rw [hd]
    rfl
  | cons x e ih =>
    have hnot : x.1 ∉ p.map Prod.fst := by
      rw [Distinct, List.map_append, List.nodup_append] at hdist
      exact fun hx => hdist.2.2 x.1 hx x.1 List.mem_cons_self rfl
    have hshift : p ++ x :: e = (p ++ [x]) ++ e := by rw [List.append_assoc]; rfl
    -- one entry is written over its old value, or appended when `d` is used up
    have hone : ∃ d', set (p ++ d) x.1 x.2 = (p ++ [x]) ++ d' ∧
        d'.map Prod.fst <+: e.map Prod.fst := by
      rw [set_append hnot]
      cases d with
      | nil => exact ⟨[], by rw [set, List.append_nil], List.nil_prefix⟩
      | cons y d =>
        obtain ⟨hxy, hd⟩ := List.cons_prefix_cons.mp hkeys
        refine ⟨d, ?_, hd⟩
        rw [set, if_pos (by rw [hxy]; exact beq_self_eq_true _), hxy, List.append_assoc]
        rfl
    obtain ⟨d', hset, hd'⟩ := hone
    rw [hshift] at hdist ⊢
    show update (set (p ++ d) x.1 x.2) e = _
    rw [hset]
    exact ih hd' hdist

/-- A second update with the same entries changes nothing. -/
theorem update_update (hd : Distinct d) (e : Dict κ υ) :
    update d (update d e) = update d e :=
  update_append (p := []) (keys_prefix_update d e) (hd.update e)

end Update

end Dict

end EcuTelemetry
