import Picoclaw.Go.Strings

/-!
# `path/filepath` on Unix: `Clean`, `Join`, `Dir` and `Ext`

`Clean` reads a path as its elements between `'/'`s and keeps a stack of the elements it
keeps, the last one on top (`cleanStep`): an empty element and `"."` are dropped; `".."`
removes the last real element, is dropped at the root of a rooted path, and is kept at the
start of a relative one; any other element is kept. The kept elements joined with `'/'`, after
a `'/'` for a rooted path, are the result, and `"."` stands for nothing kept. This is the
single-pass loop of `filepath.Clean` read as its documented rules. `Join` cleans its elements
from the first non-empty one joined with `'/'`, and `Dir` cleans everything up to the last
`'/'`.

**The law** (`join_dotdot`): an element `"../" ++ g` after a real element `e` cancels it:
`Join(d, e, "../" + g) = Join(d, g)` for every non-empty `d`, since the elements of a joined
path are the elements of its parts one after another (`splitOn_append_cons`) and `Clean` folds
over them.

**The canonical form** (`clean_clean`): `Clean` returns a path whose stack holds only real
elements above a run of `".."`s (`NormalStack`), and reading such a path again keeps the same
stack, so cleaning twice is cleaning once. A real element written after a non-empty path is
pushed on its stack (`cleanStack_append_elem`), which is how a backup's path is read back.
-/

namespace Picoclaw.Go

/-- One element read by `Clean`, on the stack of the elements kept so far. -/
def cleanStep (rooted : Bool) (kept : List (List Char)) (e : List Char) : List (List Char) :=
  if e = [] ∨ e = ['.'] then kept
  else if e = ['.', '.'] then
    match kept with
    | top :: rest => if top = ['.', '.'] then e :: kept else rest
    | [] => if rooted then [] else [e]
  else e :: kept

/-- `filepath.Clean`. -/
def clean (path : String) : String :=
  let rooted := path.data.head? = some '/'
  let kept := (path.data.splitOn '/').foldl (cleanStep rooted) []
  let body := ['/'].intercalate kept.reverse
  if rooted then String.mk ('/' :: body) else if body = [] then "." else String.mk body

/-- `filepath.Join`: the elements from the first non-empty one, joined with `'/'` and cleaned;
`""` when every element is empty. -/
def join (elem : List String) : String :=
  match elem.dropWhile (· = "") with
  | [] => ""
  | es => clean ("/".intercalate es)

/-- `filepath.Dir`: everything up to the last `'/'`, cleaned. -/
def dir (path : String) : String :=
  clean (String.mk (path.data.reverse.dropWhile (· ≠ '/')).reverse)

example : clean "a//b/./../c/" = "a/c" := by decide
example : clean "/../x" = "/x" := by decide
example : clean "../../x" = "../../x" := by decide
example : dir "/etc/picoclaw/config.json" = "/etc/picoclaw" := by decide
example : dir "config.json" = "." := by decide

/-- `Clean` never answers the empty path. -/
theorem clean_ne_empty (path : String) : clean path ≠ "" := by
  unfold clean
  dsimp only
  split_ifs with hrooted hbody
  · simp [String.ext_iff]
  · simp [String.ext_iff]
  · simpa [String.ext_iff] using hbody

/-- A real element followed by `".."` leaves the stack as it was. -/
theorem foldl_cleanStep_cancel (rooted : Bool) (kept : List (List Char)) {e : List Char}
    (he : e ≠ [] ∧ e ≠ ['.'] ∧ e ≠ ['.', '.']) :
    [e, ['.', '.']].foldl (cleanStep rooted) kept = kept := by
  simp [cleanStep, he.1, he.2.1, he.2.2]

/-- **`".."` cancels the element before it.** For every non-empty `d`, real element `e` and
`g`, `Join(d, e, "../" + g) = Join(d, g)`. -/
theorem join_dotdot {d e : String} (hd : d ≠ "") (he : e.data ≠ [] ∧ e.data ≠ ['.'] ∧
    e.data ≠ ['.', '.'] ∧ '/' ∉ e.data) (g : String) :
    join [d, e, "../" ++ g] = join [d, g] := by
  have hdrop : ∀ l : List String, (d :: l).dropWhile (· = "") = d :: l := fun l =>
    List.dropWhile_cons_of_neg (by simpa using hd)
  have hne : d.data ≠ [] := by simpa [String.ext_iff] using hd
  simp only [join, hdrop, String.intercalate, String.intercalate.go]
  have hsplit : (d ++ "/" ++ e ++ "/" ++ ("../" ++ g)).data.splitOn '/' =
      d.data.splitOn '/' ++ [e.data, ['.', '.']] ++ g.data.splitOn '/' := by
    simp only [String.data_append, List.append_assoc]
    rw [List.singleton_append, List.singleton_append, splitOn_append_cons, splitOn_append_cons,
      show ['.', '.', '/'] ++ g.data = ['.', '.'] ++ '/' :: g.data from rfl, splitOn_append_cons,
      splitOn_of_not_mem he.2.2.2, splitOn_of_not_mem (c := '/') (l := ['.', '.']) (by decide)]
    simp
  have hsplit' : (d ++ "/" ++ g).data.splitOn '/' = d.data.splitOn '/' ++ g.data.splitOn '/' := by
    simp only [String.data_append, List.append_assoc]
    rw [List.singleton_append, splitOn_append_cons]
  have hroot : (d ++ "/" ++ e ++ "/" ++ ("../" ++ g)).data.head? = (d ++ "/" ++ g).data.head? := by
    simp only [String.data_append, List.append_assoc, List.head?_append_of_ne_nil _ hne]
  simp only [clean, hsplit, hsplit', hroot, List.foldl_append,
    foldl_cleanStep_cancel _ _ ⟨he.1, he.2.1, he.2.2.1⟩]

/-- `filepath.Ext`: from the last `'.'` of the last element to the end, `""` when that element
has no `'.'`. The loop walks back from the end of the path and stops at a `'/'`. -/
def ext (path : String) : String :=
  let last := path.data.reverse.takeWhile (· ≠ '/')
  if '.' ∈ last then String.mk (last.takeWhile (· ≠ '.') ++ ['.']).reverse else ""

example : ext "backups/config_20240101000000.json" = ".json" := by decide
example : ext "a.d/config" = "" := by decide

/-! ## The canonical form

`Clean` ends with a *normal* stack (`normalStack_cleanStack`): every element is a real one
(`RealElem`), or a `".."` of a relative path with only `".."`s below it. The text of a normal
stack cleans back to the same stack and the same root (`cleanStack_render`), so `Clean` is
idempotent (`clean_clean`); a real element written after a path is pushed on the path's stack
(`cleanStack_append_elem`) and written after its text (`render_cons`); and `Dir` keeps all but at
most one element of the stack (`length_cleanStack_le_dir`).
-/

/-- The stack `Clean` ends with on `path`. -/
def cleanStack (path : String) : List (List Char) :=
  (path.data.splitOn '/').foldl (cleanStep (path.data.head? = some '/')) []

/-- The text `Clean` writes for a stack: the elements from the bottom, joined with `'/'`, after a
`'/'` for a rooted path, and `"."` for nothing kept of a relative one. -/
def render (rooted : Bool) (kept : List (List Char)) : String :=
  let body := ['/'].intercalate kept.reverse
  if rooted then String.mk ('/' :: body) else if body = [] then "." else String.mk body

theorem clean_eq_render (path : String) :
    clean path = render (path.data.head? = some '/') (cleanStack path) := by
  simp only [clean, render, cleanStack, decide_eq_true_eq]

/-- An element `Clean` keeps as it is: not empty, not `"."` or `".."`, and without a `'/'`. -/
structure RealElem (e : List Char) : Prop where
  ne_nil : e ≠ []
  ne_dot : e ≠ ['.']
  ne_dotdot : e ≠ ['.', '.']
  no_slash : '/' ∉ e

/-- The stacks `Clean` can end with: real elements, over `".."`s kept at the start of a relative
path. -/
inductive NormalStack (rooted : Bool) : List (List Char) → Prop
  | nil : NormalStack rooted []
  | real {e : List Char} {kept : List (List Char)} :
      NormalStack rooted kept → RealElem e → NormalStack rooted (e :: kept)
  | dotdot {kept : List (List Char)} : NormalStack rooted kept → rooted = false →
      (∀ x ∈ kept, x = ['.', '.']) → NormalStack rooted (['.', '.'] :: kept)

theorem cleanStep_real (rooted : Bool) (kept : List (List Char)) {e : List Char}
    (he : RealElem e) : cleanStep rooted kept e = e :: kept := by
  simp [cleanStep, he.ne_nil, he.ne_dot, he.ne_dotdot]

theorem length_cleanStep_le (rooted : Bool) (kept : List (List Char)) (e : List Char) :
    (cleanStep rooted kept e).length ≤ kept.length + 1 := by
  cases kept <;> simp only [cleanStep] <;> split_ifs <;> simp only [List.length_cons, List.length_nil] <;> omega

/-- **One element keeps the stack normal.** -/
theorem NormalStack.step {rooted : Bool} {kept : List (List Char)} (h : NormalStack rooted kept)
    {e : List Char} (he : '/' ∉ e) : NormalStack rooted (cleanStep rooted kept e) := by
  by_cases hskip : e = [] ∨ e = ['.']
  · unfold cleanStep
    rw [if_pos hskip]
    exact h
  by_cases hdd : e = ['.', '.']
  · unfold cleanStep
    rw [if_neg hskip, if_pos hdd]
    subst hdd
    cases h with
    | nil =>
      cases rooted
      · show NormalStack false [['.', '.']]
        exact .dotdot .nil rfl (by simp)
      · exact .nil
    | real hk hreal => simpa only [if_neg hreal.ne_dotdot] using hk
    | dotdot hk hr hall =>
      simpa only [if_true] using .dotdot (.dotdot hk hr hall) hr (List.forall_mem_cons.mpr ⟨rfl, hall⟩)
  · have he' : RealElem e := ⟨fun h => hskip (.inl h), fun h => hskip (.inr h), hdd, he⟩
    rw [cleanStep_real _ _ he']
    exact .real h he'

theorem NormalStack.foldl {rooted : Bool} :
    ∀ {kept : List (List Char)} {l : List (List Char)}, NormalStack rooted kept →
      (∀ e ∈ l, '/' ∉ e) → NormalStack rooted (l.foldl (cleanStep rooted) kept)
  | _, [], h, _ => h
  | _, e :: _, h, hl =>
    (h.step (hl e (List.mem_cons_self _ _))).foldl fun x hx => hl x (List.mem_cons_of_mem _ hx)

theorem normalStack_cleanStack (path : String) :
    NormalStack (path.data.head? = some '/') (cleanStack path) :=
  NormalStack.nil.foldl fun _ he => not_mem_of_mem_splitOn he

/-- The elements of a normal stack are not empty and hold no `'/'`. -/
theorem NormalStack.elem {rooted : Bool} {kept : List (List Char)} (h : NormalStack rooted kept) :
    ∀ x ∈ kept, x ≠ [] ∧ '/' ∉ x := by
  induction h with
  | nil => simp
  | real _ he ih => exact List.forall_mem_cons.mpr ⟨⟨he.ne_nil, he.no_slash⟩, ih⟩
  | dotdot _ _ _ ih => exact List.forall_mem_cons.mpr ⟨by decide, ih⟩

/-- **Folding a normal stack's elements from the bottom rebuilds it.** -/
theorem NormalStack.foldl_reverse {rooted : Bool} {kept : List (List Char)}
    (h : NormalStack rooted kept) : kept.reverse.foldl (cleanStep rooted) [] = kept := by
  induction h with
  | nil => rfl
  | real _ he ih =>
    rw [List.reverse_cons, List.foldl_append, ih]
    exact cleanStep_real _ _ he
  | @dotdot kept _ hr hall ih =>
    rw [List.reverse_cons, List.foldl_append, ih]
    cases kept with
    | nil => simp [cleanStep, hr]
    | cons top rest => simp [cleanStep, hall top (List.mem_cons_self _ _)]

theorem intercalate_append_singleton (x : List Char) :
    ∀ xs : List (List Char), xs ≠ [] →
      ['/'].intercalate (xs ++ [x]) = ['/'].intercalate xs ++ '/' :: x
  | [], h => absurd rfl h
  | [a], _ => by simp [List.intercalate]
  | a :: b :: t, _ => by
    have ih := intercalate_append_singleton x (b :: t) (List.cons_ne_nil _ _)
    simp only [List.intercalate, List.cons_append, List.intersperse_cons₂,
      List.flatten_cons] at ih ⊢
    rw [ih]
    simp

theorem head?_intercalate {x : List Char} (hx : x ≠ []) (xs : List (List Char)) :
    (['/'].intercalate (x :: xs)).head? = x.head? := by
  cases xs <;> simp [List.intercalate, List.head?_append_of_ne_nil _ hx]

/-- The joined elements of a non-empty normal stack: not empty, and not starting with `'/'`. -/
theorem NormalStack.body {rooted : Bool} {kept : List (List Char)} (h : NormalStack rooted kept)
    (hk : kept ≠ []) :
    ['/'].intercalate kept.reverse ≠ [] ∧ (['/'].intercalate kept.reverse).head? ≠ some '/' := by
  obtain ⟨x, xs, hx⟩ := List.exists_cons_of_ne_nil (List.reverse_ne_nil_iff.mpr hk)
  obtain ⟨hne, hslash⟩ := h.elem x (List.mem_reverse.mp (hx ▸ List.mem_cons_self _ _))
  obtain ⟨y, ys, rfl⟩ := List.exists_cons_of_ne_nil hne
  have hhead := head?_intercalate hne xs
  rw [hx]
  refine ⟨fun h => by simp [h] at hhead, ?_⟩
  rw [hhead, List.head?_cons]
  intro h
  exact hslash (Option.some.inj h ▸ List.mem_cons_self _ _)

/-- **The text of a normal stack cleans back to it, with the same root.** -/
theorem cleanStack_render {rooted : Bool} {kept : List (List Char)} (h : NormalStack rooted kept) :
    decide ((render rooted kept).data.head? = some '/') = rooted ∧
      cleanStack (render rooted kept) = kept := by
  by_cases hk : kept = []
  · subst hk
    cases rooted <;> decide
  obtain ⟨hbody, hhead⟩ := h.body hk
  have hsplit : (['/'].intercalate kept.reverse).splitOn '/' = kept.reverse :=
    List.splitOn_intercalate _ _ (fun x hx => (h.elem x (List.mem_reverse.mp hx)).2)
      (List.reverse_ne_nil_iff.mpr hk)
  cases rooted with
  | false =>
    simp only [render, if_neg hbody, Bool.false_eq_true, if_false, cleanStack, hhead,
      decide_False, hsplit, h.foldl_reverse, and_self]
  | true =>
    have hcons : ('/' :: ['/'].intercalate kept.reverse).splitOn '/' =
        [] :: (['/'].intercalate kept.reverse).splitOn '/' := by
      simp [List.splitOn, List.splitOnP_cons]
    simp only [render, if_true, cleanStack, List.head?_cons, decide_True, hcons, hsplit,
      List.foldl_cons, true_and]
    exact h.foldl_reverse

/-- **`Clean`'s text keeps its stack and its root.** -/
theorem clean_canonical (path : String) :
    decide ((clean path).data.head? = some '/') = decide (path.data.head? = some '/') ∧
      cleanStack (clean path) = cleanStack path := by
  rw [clean_eq_render]
  exact cleanStack_render (normalStack_cleanStack path)

/-- **`Clean` is idempotent.** -/
theorem clean_clean (path : String) : clean (clean path) = clean path := by
  rw [clean_eq_render (clean path), (clean_canonical path).1, (clean_canonical path).2,
    ← clean_eq_render]

/-- **A real element written after a non-empty path is pushed on its stack.** -/
theorem cleanStack_append_elem {p : String} (hp : p ≠ "") {e : String} (he : RealElem e.data) :
    (p ++ "/" ++ e).data.head? = p.data.head? ∧ cleanStack (p ++ "/" ++ e) = e.data :: cleanStack p := by
  have hne : p.data ≠ [] := by simpa [String.ext_iff] using hp
  have hdata : (p ++ "/" ++ e).data = p.data ++ '/' :: e.data := by simp
  have hhead : (p ++ "/" ++ e).data.head? = p.data.head? := by
    rw [hdata, List.head?_append_of_ne_nil _ hne]
  refine ⟨hhead, ?_⟩
  unfold cleanStack
  rw [hhead, hdata, splitOn_append_cons, splitOn_of_not_mem he.no_slash, List.foldl_append]
  exact cleanStep_real _ _ he

/-- **Pushing a real element writes it after the text of a non-empty normal stack.** -/
theorem render_cons {rooted : Bool} {kept : List (List Char)} (h : NormalStack rooted kept)
    (hk : kept ≠ []) (e : List Char) :
    render rooted (e :: kept) = render rooted kept ++ "/" ++ String.mk e := by
  have happ := intercalate_append_singleton e kept.reverse (List.reverse_ne_nil_iff.mpr hk)
  have hbody := (h.body hk).1
  cases rooted <;>
    simp [render, List.reverse_cons, happ, hbody, String.ext_iff]

/-- `Dir`'s part of a path: the path is that part followed by an element with no `'/'`, and
the part is empty or ends with `'/'`. -/
theorem dirPart_decomp (l : List Char) : ∃ b, '/' ∉ b ∧
    (l = b ∧ (l.reverse.dropWhile (· ≠ '/')).reverse = [] ∨
      ∃ d, l = d ++ '/' :: b ∧ (l.reverse.dropWhile (· ≠ '/')).reverse = d ++ ['/']) := by
  induction l using List.reverseRecOn with
  | nil => exact ⟨[], by simp, .inl ⟨rfl, rfl⟩⟩
  | append_singleton l a ih =>
    rw [List.reverse_concat, List.dropWhile_cons]
    by_cases ha : a = '/'
    · subst ha
      exact ⟨[], by simp, .inr ⟨l, rfl, by simp⟩⟩
    · obtain ⟨b, hb, hl⟩ := ih
      refine ⟨b ++ [a], by simp [hb, Ne.symm ha], ?_⟩
      simp only [ne_eq, ha, not_false_eq_true, decide_True, if_true]
      rcases hl with ⟨rfl, hd⟩ | ⟨d, rfl, hd⟩
      · exact .inl ⟨rfl, hd⟩
      · exact .inr ⟨d, by simp, hd⟩

/-- **`Dir` keeps all but at most one element of the stack.** -/
theorem length_cleanStack_le_dir (path : String) :
    (cleanStack path).length ≤ (cleanStack (dir path)).length + 1 := by
  unfold dir
  rw [(clean_canonical _).2]
  obtain ⟨b, hb, ⟨hl, hd⟩ | ⟨d, hl, hd⟩⟩ := dirPart_decomp path.data
  · rw [hd]
    simp only [cleanStack, hl, splitOn_of_not_mem hb, List.foldl_cons, List.foldl_nil]
    exact length_cleanStep_le _ _ _
  · rw [hd]
    have hhead : (d ++ '/' :: b).head? = (d ++ ['/']).head? := by cases d <;> rfl
    simp only [cleanStack, hl, hhead, splitOn_append_cons, splitOn_of_not_mem hb,
      List.foldl_append, List.foldl_cons, List.foldl_nil]
    exact length_cleanStep_le _ _ _

end Picoclaw.Go
