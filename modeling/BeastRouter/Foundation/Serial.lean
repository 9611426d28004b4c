import BeastRouter.Foundation.Transition
import Mathlib.Data.List.Nodup

@[ext]
structure Serial (K Rq A V : Type) where
  data : V
  heard : K → List Rq
  said : K → List A

namespace Serial
variable {K Rq A V : Type} [DecidableEq K] (f : Rq → V → List A × V)

def init (v : V) : Serial K Rq A V := ⟨v, fun _ => [], fun _ => []⟩

def step (s : Serial K Rq A V) : K × Rq → Option (Serial K Rq A V)
  | (k, rq) => some
    { data := (f rq s.data).2
      heard := fun k' => s.heard k' ++ if k = k' then [rq] else []
      said := fun k' => s.said k' ++ if k = k' then (f rq s.data).1 else [] }

abbrev run := Transition.run (step f (K := K))

theorem heard_run {s t : Serial K Rq A V} {order : List (K × Rq)} (hr : run f s order = some t)
    (k : K) : t.heard k = s.heard k ++ (order.filter fun p => p.1 = k).map Prod.snd := by
  induction order generalizing s with
  | nil =>
    obtain rfl := Option.some.inj hr
    exact (List.append_nil _).symm
  | cons p order ih =>
    obtain ⟨u, hu, hrest⟩ := Transition.run_cons.mp hr
    obtain rfl := Option.some.inj hu
    rw [ih hrest, List.append_assoc]
    by_cases hk : p.1 = k
    · rw [if_pos hk, List.filter_cons_of_pos (by simpa using hk)]
      rfl
    · rw [if_neg hk, List.filter_cons_of_neg (by simpa using hk)]
      rfl

def dataAfter (v : V) (order : List (K × Rq)) : V := order.foldl (fun v p => (f p.2 v).2) v

theorem data_run {s t : Serial K Rq A V} {order : List (K × Rq)} (hr : run f s order = some t) :
    t.data = dataAfter f s.data order := by
  induction order generalizing s with
  | nil =>
    obtain rfl := Option.some.inj hr
    rfl
  | cons p order ih =>
    obtain ⟨u, hu, hrest⟩ := Transition.run_cons.mp hr
    obtain rfl := Option.some.inj hu
    exact ih hrest

theorem untouched {s t : Serial K Rq A V} {order : List (K × Rq)} (hr : run f s order = some t)
    {k : K} (hk : k ∉ order.map Prod.fst) : t.heard k = s.heard k ∧ t.said k = s.said k := by
  induction order generalizing s with
  | nil =>
    obtain rfl := Option.some.inj hr
    exact ⟨rfl, rfl⟩
  | cons p order ih =>
    obtain ⟨u, hu, hrest⟩ := Transition.run_cons.mp hr
    obtain rfl := Option.some.inj hu
    rw [List.map_cons, List.mem_cons, not_or] at hk
    obtain ⟨hheard, hsaid⟩ := ih hrest hk.2
    rw [hheard, hsaid]
    simp [Ne.symm hk.1]

theorem taken_up_once {s t : Serial K Rq A V} {earlier later : List (K × Rq)} {k : K} {rq : Rq}
    (hr : run f s (earlier ++ (k, rq) :: later) = some t)
    (hnodup : ((earlier ++ (k, rq) :: later).map Prod.fst).Nodup) :
    t.heard k = s.heard k ++ [rq] ∧
      t.said k = s.said k ++ (f rq (dataAfter f s.data earlier)).1 := by
  rw [List.map_append, List.map_cons, List.nodup_middle, List.nodup_cons, List.mem_append,
    not_or] at hnodup
  obtain ⟨⟨hearlier, hlater⟩, -⟩ := hnodup
  obtain ⟨u, hu, hrest⟩ := Transition.run_append_some.mp hr
  obtain ⟨w, hw, hrest⟩ := Transition.run_cons.mp hrest
  obtain rfl := Option.some.inj hw
  obtain ⟨hheard, hsaid⟩ := untouched f hu hearlier
  obtain ⟨hheard', hsaid'⟩ := untouched f hrest hlater
  rw [hheard', hsaid', ← data_run f hu, ← hheard, ← hsaid]
  simp

theorem nodup_of_run {s t : Serial K Rq A V} {order : List (K × Rq)}
    (hr : run f s order = some t) (hone : ∀ k, (t.heard k).length ≤ 1) :
    (order.map Prod.fst).Nodup := by
  rw [List.nodup_iff_count_le_one]
  intro k
  have hheard := congrArg List.length (heard_run f hr k)
  rw [List.length_append, List.length_map, ← List.countP_eq_length_filter] at hheard
  have hcount : (order.map Prod.fst).count k = order.countP fun p => p.1 = k := by
    rw [List.count, List.countP_map]
    rfl
  have := hone k
  omega

theorem countP_ne_of_split {A : Type} {p : A → Bool} {xs ys xs' ys' : List A} {a b : A}
    (h : xs ++ a :: ys = xs' ++ b :: ys') (hne : a ≠ b) (ha : p a = true) (hb : p b = true) :
    xs.countP p ≠ xs'.countP p := by
  rcases List.append_eq_append_iff.mp h with ⟨mid, rfl, hmid⟩ | ⟨mid, rfl, hmid⟩
  · cases mid with
    | nil => exact absurd (List.cons.inj hmid).1 hne
    | cons c mid =>
      obtain ⟨rfl, -⟩ := List.cons.inj hmid
      rw [List.countP_append, List.countP_cons_of_pos ha]
      omega
  · cases mid with
    | nil => exact absurd (List.cons.inj hmid).1.symm hne
    | cons c mid =>
      obtain ⟨rfl, -⟩ := List.cons.inj hmid
      rw [List.countP_append, List.countP_cons_of_pos hb]
      omega

end Serial
