import Mathlib.Data.List.Basic

-- Path names as POSIX resolves them, links aside: from a directory, one component after another.
namespace PathName

abbrev Directory := List (List Char)

def follow (dir : Directory) (name : List Char) : Directory :=
  if name = [] ∨ name = ['.'] then dir
  else if name = ['.', '.'] then dir.dropLast
  else dir ++ [name]

def resolve (start : Directory) (path : List Char) : Directory :=
  (path.splitOn '/').foldl follow (if path.head? = some '/' then [] else start)

theorem resolve_append {base : List Char} (hbase : base ≠ []) (start : Directory)
    (rest : List Char) :
    resolve start (base ++ '/' :: rest) = (rest.splitOn '/').foldl follow (resolve start base) := by
  obtain ⟨c, cs, rfl⟩ := List.exists_cons_of_ne_nil hbase
  rw [resolve, resolve, List.splitOn_append_cons_self, List.foldl_append]
  rfl

theorem infix_of_mem_splitOn {path name : List Char} (h : name ∈ path.splitOn '/') :
    name <:+: path := by
  induction hn : path.length using Nat.strongRecOn generalizing path with
  | ind n ih =>
    by_cases hsep : '/' ∈ path
    · obtain ⟨xs, ys, rfl, hxs⟩ := List.eq_append_cons_of_mem hsep
      rw [List.splitOn_append_cons_self_of_not_mem hxs] at h
      have htail : ys <:+: xs ++ '/' :: ys :=
        (List.suffix_cons _ _).isInfix.trans (List.suffix_append _ _).isInfix
      rcases List.mem_cons.mp h with rfl | h
      · exact (List.prefix_append _ _).isInfix
      · have hlt : ys.length < n := by
          rw [← hn, List.length_append, List.length_cons]
          omega
        exact (ih ys.length hlt h rfl).trans htail
    · rw [List.splitOn_eq_singleton hsep] at h
      obtain rfl := List.mem_singleton.mp h
      exact List.infix_refl _

theorem descends {names : List (List Char)} (h : ∀ name ∈ names, name ≠ ['.', '.'])
    (dir : Directory) : dir <+: names.foldl follow dir := by
  induction names generalizing dir with
  | nil => exact List.prefix_refl _
  | cons name names ih =>
    have hrest := ih (fun n hn => h n (.tail name hn)) (follow dir name)
    refine List.IsPrefix.trans ?_ hrest
    rw [follow]
    split_ifs with hsame hup
    · exact List.prefix_refl _
    · exact absurd hup (h name (.head names))
    · exact List.prefix_append _ _

theorem below {base rest : List Char} (hbase : base ≠ []) (hrest : ¬['.', '.'] <:+: rest)
    (start : Directory) : resolve start base <+: resolve start (base ++ '/' :: rest) := by
  rw [resolve_append hbase]
  apply descends
  rintro name hname rfl
  exact hrest (infix_of_mem_splitOn hname)

end PathName
