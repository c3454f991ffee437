import CanonMark.Files.Document
import Mathlib.Data.List.Basic

/-! # Places on a disk

The shape of a disk is what is left of it without the contents of its files. Where a path leads, and
which files a scan finds, is decided by the shape alone. Putting a file in the place of one that is
there keeps the shape and changes one content.
-/
namespace CanonMark

/-- What an entry of a directory can be called. -/
structure Path.IsName (name : Text) : Prop where
  nonempty : name ≠ []
  noSlash : '/' ∉ name
  notDot : name ≠ ['.']
  notDots : name ≠ ['.', '.']

instance (name : Text) : Decidable (Path.IsName name) :=
  decidable_of_iff (name ≠ [] ∧ '/' ∉ name ∧ name ≠ ['.'] ∧ name ≠ ['.', '.'])
    ⟨fun ⟨h₁, h₂, h₃, h₄⟩ => ⟨h₁, h₂, h₃, h₄⟩, fun ⟨h₁, h₂, h₃, h₄⟩ => ⟨h₁, h₂, h₃, h₄⟩⟩

namespace Entry

/-- No directory has two entries of one name, and each name can be one. -/
inductive Proper : Entry → Prop where
  | file (name content) : Proper (.file name content)
  | directory (name) {entries : List Entry} : (entries.map Entry.name).Nodup →
      (∀ e ∈ entries, Path.IsName e.name) → (∀ e ∈ entries, Proper e) →
      Proper (.directory name entries)

mutual
def shape : Entry → Entry
  | .file name _ => .file name []
  | .directory name entries => .directory name (shapes entries)

def shapes : List Entry → List Entry
  | [] => []
  | e :: es => e.shape :: shapes es
end

def contentAt (e : Entry) (place : List Text) : Option Bytes :=
  match e.descend place with
  | some (.file _ content) => some content
  | _ => none

theorem shapes_eq_map (es : List Entry) : shapes es = es.map shape := by
  induction es with
  | nil => rfl
  | cons e es ih => rw [shapes, ih, List.map_cons]

@[simp] theorem name_shape (e : Entry) : e.shape.name = e.name := by
  cases e <;> rfl

@[simp] theorem isDirectory_shape (e : Entry) : e.shape.isDirectory = e.isDirectory := by
  cases e <;> rfl

theorem proper_directory {name : Text} {es : List Entry} (h : (directory name es).Proper) :
    (es.map Entry.name).Nodup ∧ (∀ e ∈ es, Path.IsName e.name) ∧ ∀ e ∈ es, e.Proper := by
  cases h with
  | directory _ hnodup hnames hproper => exact ⟨hnodup, hnames, hproper⟩

mutual
theorem proper_of_shape : ∀ {e e' : Entry}, e.shape = e'.shape → e.Proper → e'.Proper
  | .file n c, .file n' c', _, _ => .file n' c'
  | .file n c, .directory n' es', h, _ => by cases h
  | .directory n es, .file n' c', h, _ => .file n' c'
  | .directory n es, .directory n' es', h, hproper => by
    obtain ⟨-, hes⟩ := Entry.directory.inj h
    obtain ⟨hnodup, hnames, hall⟩ := proper_directory hproper
    have hsame : es.map Entry.name = es'.map Entry.name := by
      have hmap := congrArg (List.map Entry.name) hes
      simpa [shapes_eq_map, Function.comp_def] using hmap
    refine .directory n' (hsame ▸ hnodup) ?_ (proper_of_shapes hes hall)
    intro e he
    have hmem : e.name ∈ es.map Entry.name := by
      rw [hsame]
      exact List.mem_map_of_mem he
    obtain ⟨e₀, he₀, hname⟩ := List.mem_map.mp hmem
    exact hname ▸ hnames e₀ he₀

theorem proper_of_shapes : ∀ {es es' : List Entry}, shapes es = shapes es' →
    (∀ e ∈ es, e.Proper) → ∀ e ∈ es', e.Proper
  | [], [], _, _ => by simp
  | [], e' :: es', h, _ => by cases h
  | e :: es, [], h, _ => by cases h
  | e :: es, e' :: es', h, hall => by
    obtain ⟨he, hes⟩ := List.cons.inj h
    intro x hx
    rcases List.mem_cons.mp hx with rfl | hx
    · exact proper_of_shape he (hall e List.mem_cons_self)
    · exact proper_of_shapes hes (fun y hy => hall y (List.mem_cons_of_mem _ hy)) x hx
end

theorem child?_shape (e : Entry) (name : Text) :
    e.shape.child? name = (e.child? name).map shape := by
  cases e with
  | file n c => rfl
  | directory n es =>
    simp only [shape, child?, shapes_eq_map, List.find?_map, Function.comp_def, name_shape]

theorem descend_shape (e : Entry) (place : List Text) :
    e.shape.descend place = (e.descend place).map shape := by
  induction place generalizing e with
  | nil => rfl
  | cons name names ih =>
    rw [descend, descend, child?_shape]
    cases e.child? name with
    | none => rfl
    | some c => exact ih c

theorem contentAt_eq_some {e : Entry} {place : List Text} {content : Bytes} :
    e.contentAt place = some content ↔ ∃ name, e.descend place = some (.file name content) := by
  rw [contentAt]
  cases e.descend place with
  | none => simp
  | some c => cases c <;> simp

theorem contentAt_cons (e : Entry) (name : Text) (names : List Text) :
    e.contentAt (name :: names) = (e.child? name).bind (·.contentAt names) := by
  rw [contentAt, descend]
  cases e.child? name <;> rfl

theorem descend_append (e : Entry) (place more : List Text) :
    e.descend (place ++ more) = (e.descend place).bind (·.descend more) := by
  induction place generalizing e with
  | nil => rfl
  | cons name names ih =>
    rw [List.cons_append, descend, descend]
    cases e.child? name with
    | none => rfl
    | some c => exact ih c

theorem name_of_child? {e c : Entry} {name : Text} (h : e.child? name = some c) :
    c.name = name := by
  cases e with
  | file n b => cases h
  | directory n es =>
    have hbeq : (c.name == name) = true := List.find?_some (p := fun c : Entry => c.name == name) h
    exact eq_of_beq hbeq

/-- What lies below a place lies in a directory. -/
theorem descend_of_descend_concat {e c : Entry} {place : List Text} {name : Text}
    (h : e.descend (place ++ [name]) = some c) :
    ∃ n es, e.descend place = some (.directory n es) ∧
      (directory n es).child? name = some c ∧ c.name = name := by
  rw [descend_append] at h
  obtain ⟨parent, hparent, hdown⟩ := Option.bind_eq_some_iff.mp h
  obtain ⟨c', hchild, hc⟩ := Option.bind_eq_some_iff.mp hdown
  obtain rfl : c' = c := Option.some.inj hc
  cases parent with
  | file n b => cases hchild
  | directory n es => exact ⟨n, es, hparent, hchild, name_of_child? hchild⟩

theorem descend_dropLast {e : Entry} {place : List Text} {n : Text} {es : List Entry}
    (h : e.descend place = some (.directory n es)) :
    ∃ n' es', e.descend place.dropLast = some (.directory n' es') := by
  rcases List.eq_nil_or_concat' place with rfl | ⟨above, name, rfl⟩
  · exact ⟨n, es, h⟩
  · obtain ⟨n', es', hparent, -⟩ := descend_of_descend_concat h
    exact ⟨n', es', by rwa [List.dropLast_concat]⟩

theorem proper_descend {e c : Entry} {place : List Text} (he : e.Proper)
    (h : e.descend place = some c) : c.Proper := by
  induction place generalizing e with
  | nil =>
    obtain rfl : e = c := Option.some.inj h
    exact he
  | cons name names ih =>
    obtain ⟨child, hchild, hc⟩ := Option.bind_eq_some_iff.mp h
    cases e with
    | file n b => cases hchild
    | directory n es =>
      exact ih ((proper_directory he).2.2 child (List.mem_of_find?_eq_some hchild)) hc

theorem child?_of_mem {n : Text} {es : List Entry} (h : (es.map Entry.name).Nodup) {e : Entry}
    (he : e ∈ es) : (directory n es).child? e.name = some e := by
  change es.find? (fun c => c.name == e.name) = some e
  induction es with
  | nil => cases he
  | cons x es ih =>
    rw [List.map_cons, List.nodup_cons] at h
    rcases List.mem_cons.mp he with rfl | he
    · exact List.find?_cons_of_pos (beq_self_eq_true _)
    · have hne : x.name ≠ e.name := by
        intro hname
        exact h.1 (hname ▸ List.mem_map_of_mem he)
      rw [List.find?_cons_of_neg (by simpa using hne)]
      exact ih h.2 he

theorem isName_of_descend {e c : Entry} {place : List Text} (he : e.Proper)
    (h : e.descend place = some c) : ∀ name ∈ place, Path.IsName name := by
  induction place generalizing e with
  | nil => simp
  | cons first names ih =>
    obtain ⟨child, hchild, hc⟩ := Option.bind_eq_some_iff.mp h
    cases e with
    | file n b => cases hchild
    | directory n es =>
      obtain ⟨-, hnames, hproper⟩ := proper_directory he
      have hmem : child ∈ es := List.mem_of_find?_eq_some hchild
      intro name hname
      rcases List.mem_cons.mp hname with rfl | hname
      · exact name_of_child? hchild ▸ hnames child hmem
      · exact ih (hproper child hmem) hc name hname

mutual
/-- The names that lead to the Markdown files at an entry. -/
def markdownFiles : Entry → List (List Text)
  | .file name _ => if Path.isMarkdownName name then [[name]] else []
  | .directory name entries => (markdownFilesIn entries).map (name :: ·)

def markdownFilesIn : List Entry → List (List Text)
  | [] => []
  | e :: es => e.markdownFiles ++ markdownFilesIn es
end

theorem mem_markdownFilesIn {es : List Entry} {names : List Text} :
    names ∈ markdownFilesIn es ↔ ∃ e ∈ es, names ∈ e.markdownFiles := by
  induction es with
  | nil => simp [markdownFilesIn]
  | cons e es ih => simp [markdownFilesIn, ih]

theorem descend_of_mem_markdownFilesIn {names : List Text} : ∀ {n : Text} {es : List Entry},
    (directory n es).Proper → names ∈ markdownFilesIn es →
    ∃ above name content, names = above ++ [name] ∧ Path.isMarkdownName name = true ∧
      (directory n es).descend names = some (.file name content) := by
  induction names with
  | nil =>
    intro n es hproper hmem
    obtain ⟨e, he, hfound⟩ := mem_markdownFilesIn.mp hmem
    cases e <;> simp [markdownFiles] at hfound
  | cons first names ih =>
    intro n es hproper hmem
    obtain ⟨e, he, hfound⟩ := mem_markdownFilesIn.mp hmem
    obtain ⟨hnodup, -, hall⟩ := proper_directory hproper
    have hchild : (directory n es).child? e.name = some e := child?_of_mem hnodup he
    cases e with
    | file m c =>
      rw [markdownFiles] at hfound
      split at hfound
      · next hmd =>
        obtain ⟨rfl, rfl⟩ := List.cons.inj (List.mem_singleton.mp hfound)
        refine ⟨[], first, c, rfl, hmd, ?_⟩
        rw [descend, show (directory n es).child? first = _ from hchild]
        rfl
      · cases hfound
    | directory m es' =>
      rw [markdownFiles] at hfound
      obtain ⟨rest, hrest, hcons⟩ := List.mem_map.mp hfound
      obtain ⟨rfl, rfl⟩ := List.cons.inj hcons
      obtain ⟨above, name, content, rfl, hmd, hdown⟩ := ih (hall _ he) hrest
      refine ⟨m :: above, name, content, rfl, hmd, ?_⟩
      rw [descend, show (directory n es).child? m = _ from hchild]
      exact hdown

theorem find?_putAmong (new : Entry) (es : List Entry) (x : Text) :
    (putAmong new es).find? (fun c => c.name == x) =
      if new.name = x then some new else es.find? fun c => c.name == x := by
  induction es with
  | nil => by_cases h : new.name = x <;> simp [putAmong, h]
  | cons e es ih =>
    rw [putAmong]
    by_cases he : e.name = new.name
    · rw [if_pos (by simpa using he)]
      by_cases hx : new.name = x
      · rw [if_pos hx, List.find?_cons_of_pos (by simpa using hx)]
      · rw [if_neg hx, List.find?_cons_of_neg (by simpa using hx),
          List.find?_cons_of_neg (by simpa [he] using hx)]
    · rw [if_neg (by simpa using he)]
      by_cases hx : e.name = x
      · have hnew : new.name ≠ x := fun hn => he (hx.trans hn.symm)
        rw [if_neg hnew, List.find?_cons_of_pos (by simpa using hx),
          List.find?_cons_of_pos (by simpa using hx)]
      · rw [List.find?_cons_of_neg (by simpa using hx), ih,
          List.find?_cons_of_neg (by simpa using hx)]

theorem shapes_putAmong {new old : Entry} {es : List Entry}
    (hold : es.find? (fun c => c.name == new.name) = some old) (hshape : old.shape = new.shape) :
    shapes (putAmong new es) = shapes es := by
  induction es with
  | nil => cases hold
  | cons e es ih =>
    rw [putAmong]
    by_cases he : e.name = new.name
    · rw [List.find?_cons_of_pos (by simpa using he)] at hold
      obtain rfl : e = old := Option.some.inj hold
      rw [if_pos (by simpa using he), shapes, shapes, hshape]
    · rw [List.find?_cons_of_neg (by simpa using he)] at hold
      rw [if_neg (by simpa using he), shapes, shapes, ih hold]

theorem name_put (new : Entry) (place : List Text) (e : Entry) :
    (put new place e).name = e.name := by
  cases e with
  | file n c => cases place <;> rfl
  | directory n es => cases place <;> rfl

theorem child?_put_cons (new : Entry) (name : Text) (names : List Text) (n : Text)
    (es : List Entry) (x : Text) : (put new (name :: names) (directory n es)).child? x =
      ((directory n es).child? x).map fun c => if x = name then put new names c else c := by
  simp only [put, child?, List.find?_map]
  have htest : ((fun c : Entry => c.name == x) ∘
      fun e => if e.name == name then put new names e else e) = fun c => c.name == x := by
    funext e
    by_cases he : e.name = name <;> simp [he, name_put]
  rw [htest]
  cases hfind : es.find? fun c => c.name == x with
  | none => rfl
  | some c =>
    have hname : c.name = x := name_of_child? (e := directory n es) hfind
    simp [hname]

structure Replaceable (e : Entry) (place : List Text) (name : Text) (old : Bytes) : Prop where
  proper : e.Proper
  found : e.descend (place ++ [name]) = some (.file name old)

theorem Replaceable.below {n name first : Text} {es : List Entry} {names : List Text} {old : Bytes}
    (h : (directory n es).Replaceable (first :: names) name old) :
    ∃ c, (directory n es).child? first = some c ∧ c.Replaceable names name old := by
  obtain ⟨c, hchild, hfound⟩ := Option.bind_eq_some_iff.mp h.found
  refine ⟨c, hchild, ?_, hfound⟩
  exact (proper_directory h.proper).2.2 c (List.mem_of_find?_eq_some hchild)

theorem shape_put {e : Entry} {place : List Text} {name : Text} {old : Bytes}
    (h : e.Replaceable place name old) (content : Bytes) :
    (put (.file name content) place e).shape = e.shape := by
  induction place generalizing e with
  | nil =>
    cases e with
    | file n c => rfl
    | directory n es =>
      obtain ⟨c, hchild, hc⟩ := Option.bind_eq_some_iff.mp h.found
      obtain rfl : c = .file name old := Option.some.inj hc
      exact congrArg (directory n) (shapes_putAmong hchild rfl)
  | cons first names ih =>
    cases e with
    | file n c => rfl
    | directory n es =>
      obtain ⟨c, hchild, hbelow⟩ := h.below
      have hnodup := (proper_directory h.proper).1
      refine congrArg (directory n) ?_
      rw [shapes_eq_map, shapes_eq_map, List.map_map]
      refine List.map_congr_left ?_
      intro e he
      by_cases hname : e.name = first
      · -- the names are different, so this is the entry that was gone into
        have hfound := child?_of_mem (n := n) hnodup he
        rw [hname, hchild] at hfound
        obtain rfl : c = e := Option.some.inj hfound
        simpa [hname] using ih hbelow
      · simp [hname]

theorem contentAt_put {e : Entry} {place : List Text} {name : Text} {old : Bytes}
    (h : e.Replaceable place name old) (content : Bytes) (q : List Text) :
    (put (.file name content) place e).contentAt q =
      if q = place ++ [name] then some content else e.contentAt q := by
  induction place generalizing e q with
  | nil =>
    cases e with
    | file n c => cases h.found
    | directory n es =>
      cases q with
      | nil => rfl
      | cons x xs =>
        rw [contentAt_cons, contentAt_cons]
        have hchild : (put (.file name content) [] (directory n es)).child? x =
            if name = x then some (.file name content) else (directory n es).child? x :=
          find?_putAmong (.file name content) es x
        rw [hchild]
        by_cases hx : name = x
        · subst hx
          obtain ⟨c, hold, hc⟩ := Option.bind_eq_some_iff.mp h.found
          obtain rfl : c = .file name old := Option.some.inj hc
          rw [if_pos rfl, hold]
          cases xs with
          | nil => simp [contentAt, descend]
          | cons y ys => simp [contentAt_cons, child?]
        · have hne : x :: xs ≠ [] ++ [name] := fun heq => hx (List.cons.inj heq).1.symm
          rw [if_neg hx, if_neg hne]
  | cons first names ih =>
    cases e with
    | file n c => cases h.found
    | directory n es =>
      cases q with
      | nil => rfl
      | cons x xs =>
        rw [contentAt_cons, contentAt_cons, child?_put_cons]
        by_cases hx : x = first
        · subst hx
          obtain ⟨c, hold, hbelow⟩ := h.below
          simpa [hold] using ih hbelow xs
        · simp [hx]

end Entry

/-- The Markdown files among the entries of a directory, in order. -/
def scanEntries (entries : List Entry) : List (List Text) :=
  (Entry.markdownFilesIn entries).mergeSort Path.lessEq

namespace Disk

theorem search_directory_eq_ok {d : Disk} {place : List Text} {n : Text} {es : List Entry}
    {found : List (List Text)} : d.search place (.directory n es) = .ok found ↔
      d.denial? place = none ∧ d.searchAmong place es = .ok found := by
  rw [search]
  cases d.denial? place with
  | none => simp
  | some e => simp

theorem searchAmong_cons_eq_ok {d : Disk} {place : List Text} {e : Entry} {es : List Entry}
    {found : List (List Text)} : d.searchAmong place (e :: es) = .ok found ↔
      ∃ first more, d.search (place ++ [e.name]) e = .ok first ∧ d.searchAmong place es = .ok more ∧
        found = first.map (e.name :: ·) ++ more := by
  rw [searchAmong]
  constructor
  · intro h
    cases hfirst : d.search (place ++ [e.name]) e with
    | error cause =>
      rw [hfirst] at h
      cases h
    | ok first =>
      cases hmore : d.searchAmong place es with
      | error cause =>
        rw [hfirst, hmore] at h
        cases h
      | ok more =>
        rw [hfirst, hmore] at h
        exact ⟨first, more, rfl, rfl, (Except.ok.inj h).symm⟩
  · rintro ⟨first, more, hfirst, hmore, rfl⟩
    rw [hfirst, hmore]
    rfl

mutual
theorem search_eq_ok {d : Disk} : ∀ {place : List Text} {e : Entry} {found : List (List Text)},
    d.search place e = .ok found → found.map (e.name :: ·) = e.markdownFiles
  | place, .file name content, found, h => by
    rw [search] at h
    obtain rfl := Except.ok.inj h
    rw [Entry.markdownFiles]
    split
    · rfl
    · rfl
  | place, .directory name entries, found, h => by
    obtain ⟨-, hamong⟩ := search_directory_eq_ok.mp h
    rw [searchAmong_eq_ok hamong]
    rfl

theorem searchAmong_eq_ok {d : Disk} : ∀ {place : List Text} {es : List Entry}
    {found : List (List Text)}, d.searchAmong place es = .ok found →
    found = Entry.markdownFilesIn es
  | place, [], found, h => (Except.ok.inj h).symm
  | place, e :: es, found, h => by
    obtain ⟨first, more, hfirst, hmore, hfound⟩ := searchAmong_cons_eq_ok.mp h
    rw [hfound, search_eq_ok hfirst, searchAmong_eq_ok hmore]
    rfl
end

theorem scan_directory {d : Disk} {path n : Text} {start : List Text} {es : List Entry}
    (h : d.resolve path = .ok start) (hdir : d.root.descend start = some (.directory n es)) :
    d.scan path = match d.search start (.directory n es) with
      | .error e => .error (.os e)
      | .ok _ => .ok ((scanEntries es).map fun names => names.foldl Path.join path) := by
  simp only [scan, h, hdir]
  cases hfound : d.search start (.directory n es) with
  | error e => rfl
  | ok found =>
    rw [searchAmong_eq_ok (search_directory_eq_ok.mp hfound).2]
    rfl

end Disk
end CanonMark
