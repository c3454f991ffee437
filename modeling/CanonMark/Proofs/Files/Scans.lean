import CanonMark.Proofs.Files.Paths
import CanonMark.Proofs.Text.ByteOrder
import Mathlib.Data.List.Nodup
import Mathlib.Data.List.Permutation
import Mathlib.Data.List.TakeWhile

/-! # Scans

A scan walks through the directories in the order in which they are listed and sorts what it has
found. It succeeds if each of them can be listed. No two entries of a directory have one name, so
each Markdown file is found once, and sorting by names leaves nothing of the order of the listings.
-/
namespace CanonMark

namespace Path

/-- Paths in the order of their components, and these in the order of their bytes. -/
def Before (p q : Text) : Prop :=
  List.Lex Utf8.BytesBefore ((components p).map Utf8.encode) ((components q).map Utf8.encode)

def codes (p : List Text) : List (List Nat) := p.map (·.map Char.toNat)

end Path

namespace Entry

mutual
/-- The same entry, with the entries of each directory in it listed in any order. -/
inductive Relisted : Entry → Entry → Prop where
  | file (name content) : Relisted (.file name content) (.file name content)
  | directory (name) {es fs : List Entry} : RelistedIn es fs →
      Relisted (.directory name es) (.directory name fs)

inductive RelistedIn : List Entry → List Entry → Prop where
  | nil : RelistedIn [] []
  | cons {e f es fs} : Relisted e f → RelistedIn es fs → RelistedIn (e :: es) (f :: fs)
  | swap (e f es) : RelistedIn (e :: f :: es) (f :: e :: es)
  | trans {es fs gs} : RelistedIn es fs → RelistedIn fs gs → RelistedIn es gs
end

end Entry

namespace Path

theorem extensionOf?_eq_some {name ext : Text} : extensionOf? name = some ext ↔
    '.' ∉ ext ∧ name ≠ ['.', '.'] ∧ ∃ stem, stem ≠ [] ∧ name = stem ++ '.' :: ext := by
  constructor
  · intro h
    rw [extensionOf?] at h
    split at h
    · cases h
    · next hsome =>
      rw [Bool.or_eq_true, not_or, List.isEmpty_iff, beq_iff_eq] at hsome
      obtain ⟨hbefore, hdots⟩ := hsome
      have hext : (name.reverse.takeWhile (· != '.')).reverse = ext := Option.some.inj h
      have hnodot : '.' ∉ ext := by
        intro hmem
        rw [← hext, List.mem_reverse] at hmem
        simpa using List.mem_takeWhile_imp hmem
      have hsplit : name = (name.reverse.dropWhile (· != '.')).reverse ++ ext := by
        rw [← hext, ← List.reverse_append, List.takeWhile_append_dropWhile, List.reverse_reverse]
      cases hrest : name.reverse.dropWhile (· != '.') with
      | nil =>
        rw [hrest] at hsplit
        have hall : name = ext := hsplit
        rw [hext, hall, Nat.sub_self, Nat.zero_sub, List.take_zero] at hbefore
        exact absurd rfl hbefore
      | cons c before =>
        obtain rfl : c = '.' := by
          have hhead := List.head?_dropWhile_not (· != '.') name.reverse
          rw [hrest] at hhead
          simpa using hhead
        rw [hrest, List.reverse_cons, List.append_assoc, List.singleton_append] at hsplit
        refine ⟨hnodot, hdots, before.reverse, ?_, hsplit⟩
        intro hempty
        have hall : name = '.' :: ext := by rw [hsplit, hempty, List.nil_append]
        rw [hext, hall, List.length_cons, Nat.add_sub_cancel_left, Nat.sub_self,
          List.take_zero] at hbefore
        exact absurd rfl hbefore
  · rintro ⟨hnodot, hdots, stem, hstem, rfl⟩
    have hrun : ((stem ++ '.' :: ext).reverse.takeWhile (· != '.')).reverse = ext := by
      have hall : ∀ c ∈ ext.reverse, (c != '.') = true := by
        intro c hc
        rw [List.mem_reverse] at hc
        simpa using ne_of_mem_of_not_mem hc hnodot
      rw [List.reverse_append, List.reverse_cons, List.append_assoc,
        List.takeWhile_append_of_pos hall]
      simp
    have hbefore : (stem ++ '.' :: ext).take ((stem ++ '.' :: ext).length - ext.length - 1) =
        stem := by
      have hlength : (stem ++ '.' :: ext).length - ext.length - 1 = stem.length := by
        simp only [List.length_append, List.length_cons]
        omega
      rw [hlength, List.take_left]
    rw [extensionOf?, hrun, hbefore]
    simp [hstem, hdots]

theorem isMarkdownName_iff {name : Text} : isMarkdownName name = true ↔
    ∃ stem, stem ≠ [] ∧ name = stem ++ ".md".toList := by
  rw [isMarkdownName, beq_iff_eq, extensionOf?_eq_some]
  constructor
  · rintro ⟨-, -, hname⟩
    exact hname
  · rintro ⟨stem, hstem, rfl⟩
    refine ⟨by decide, ?_, stem, hstem, rfl⟩
    intro heq
    have hlast := congrArg List.getLast? heq
    simp at hlast

theorem names_join (path : Text) {name : Text} (hname : IsName name) :
    names (join path name) = names path ++ [name] := by
  obtain ⟨pieces, hsplit, hnames⟩ := splitOn_join path hname.noSlash
  have hkeep : [name].filter (fun p => !p.isEmpty) = [name] := by simp [hname.nonempty]
  rw [names, hsplit, List.filter_append, hnames, hkeep]

theorem components_join {path name : Text} (hpath : path ≠ []) (hname : IsName name) :
    components (join path name) = components path ++ [name] := by
  rw [components_eq, components_eq, names_join path hname, isAbsolute_join hpath]
  cases names path with
  | nil => simp [hname.notDot]
  | cons first rest =>
    have hkeep : [name].filter (· != ['.']) = [name] := by simp [hname.notDot]
    simp only [List.cons_append, List.filter_append, hkeep]
    split <;> rfl

theorem join_ne_nil (path : Text) {name : Text} (hname : IsName name) : join path name ≠ [] := by
  rw [join]
  split <;> simp [hname.nonempty]

theorem components_foldl_join {path : Text} (hpath : path ≠ []) {more : List Text}
    (hmore : ∀ name ∈ more, IsName name) :
    components (more.foldl join path) = components path ++ more := by
  induction more generalizing path with
  | nil => simp
  | cons name more ih =>
    have hname : IsName name := hmore name (by simp)
    rw [List.foldl_cons, ih (join_ne_nil path hname) fun x hx => hmore x (by simp [hx]),
      components_join hpath hname, List.append_assoc, List.singleton_append]

theorem nameLess_iff {a b : Text} : nameLess a b = true ↔ Text.CodesBefore a b := by
  rw [nameLess, List.lex_eq_true_iff_lex]
  simp [Text.CodesBefore]

theorem less_iff {p q : List Text} : less p q = true ↔ List.Lex Text.CodesBefore p q := by
  rw [less, List.lex_eq_true_iff_lex]
  simp [nameLess_iff]

theorem toNat_injective : Function.Injective Char.toNat := fun _ _ h => Char.toNat_inj.mp h

theorem codes_injective : Function.Injective codes :=
  (toNat_injective.list_map).list_map

theorem less_iff_codes {p q : List Text} : less p q = true ↔ codes p < codes q := by
  have hnames : ∀ a b : Text, a.map Char.toNat < b.map Char.toNat ↔ Text.CodesBefore a b :=
    fun a b => Utf8.lex_map_iff toNat_injective
  have hpaths : codes p < codes q ↔
      List.Lex (fun a b : Text => a.map Char.toNat < b.map Char.toNat) p q :=
    Utf8.lex_map_iff toNat_injective.list_map
  rw [less_iff, hpaths]
  simp only [hnames]

theorem lessEq_iff {p q : List Text} : lessEq p q = true ↔ codes p ≤ codes q := by
  rw [lessEq, Bool.not_eq_true', ← Bool.not_eq_true, less_iff_codes, not_lt]

theorem lessEq_trans (p q r : List Text) (hpq : lessEq p q = true) (hqr : lessEq q r = true) :
    lessEq p r = true := by
  rw [lessEq_iff] at *
  exact le_trans hpq hqr

theorem lessEq_total (p q : List Text) : (lessEq p q || lessEq q p) = true := by
  rw [Bool.or_eq_true, lessEq_iff, lessEq_iff]
  exact le_total _ _

theorem lessEq_antisymm {p q : List Text} (hpq : lessEq p q = true) (hqp : lessEq q p = true) :
    p = q := by
  rw [lessEq_iff] at *
  exact codes_injective (le_antisymm hpq hqp)

/-- Of two names lists that differ the smaller one gives the earlier path. -/
theorem before_foldl_join {path : Text} (hpath : path ≠ []) {p q : List Text}
    (hp : ∀ name ∈ p, IsName name) (hq : ∀ name ∈ q, IsName name) (h : lessEq p q = true)
    (hne : p ≠ q) : Before (p.foldl join path) (q.foldl join path) := by
  have hless : less p q = true := by
    rw [less_iff_codes]
    exact lt_of_le_of_ne (lessEq_iff.mp h) fun heq => hne (codes_injective heq)
  rw [Before, components_foldl_join hpath hp, components_foldl_join hpath hq, List.map_append,
    List.map_append]
  refine List.Lex.append_left _ ?_ _
  rw [Utf8.lex_map_iff Utf8.encode_injective]
  simp only [Utf8.bytesBefore_encode_iff]
  exact less_iff.mp hless

end Path

namespace Entry

theorem head?_of_mem_markdownFiles {e : Entry} {names : List Text} (h : names ∈ e.markdownFiles) :
    names.head? = some e.name := by
  cases e with
  | file n c =>
    rw [markdownFiles] at h
    split at h
    · rw [List.mem_singleton.mp h]
      rfl
    · cases h
  | directory n es =>
    obtain ⟨rest, -, rfl⟩ := List.mem_map.mp h
    rfl

/-- Every chain of names that ends in a Markdown file is found. -/
theorem mem_markdownFilesIn_of_descend {names : List Text} (hne : names ≠ []) :
    ∀ {n : Text} {es : List Entry} {name : Text} {content : Bytes},
      (directory n es).descend names = some (.file name content) →
      Path.isMarkdownName name = true → names ∈ markdownFilesIn es := by
  induction names with
  | nil => exact absurd rfl hne
  | cons first rest ih =>
    intro n es name content h hmarkdown
    obtain ⟨e, hchild, hdown⟩ := Option.bind_eq_some_iff.mp h
    have hmem : e ∈ es := List.mem_of_find?_eq_some hchild
    have hname : e.name = first := name_of_child? hchild
    refine mem_markdownFilesIn.mpr ⟨e, hmem, ?_⟩
    cases e with
    | file m c =>
      cases rest with
      | nil =>
        obtain ⟨rfl, rfl⟩ := Entry.file.inj (Option.some.inj hdown)
        obtain rfl : m = first := hname
        simp [markdownFiles, hmarkdown]
      | cons second rest => cases hdown
    | directory m fs =>
      obtain rfl : m = first := hname
      cases rest with
      | nil => cases hdown
      | cons second rest =>
        exact List.mem_map_of_mem (ih (by simp) hdown hmarkdown)

theorem mem_markdownFilesIn_iff {n : Text} {es : List Entry} (h : (directory n es).Proper)
    {names : List Text} : names ∈ markdownFilesIn es ↔
      ∃ above stem content, names = above ++ [stem ++ ".md".toList] ∧ stem ≠ [] ∧
        (directory n es).descend names = some (.file (stem ++ ".md".toList) content) := by
  constructor
  · intro hmem
    obtain ⟨above, name, content, hnames, hmarkdown, hdown⟩ :=
      descend_of_mem_markdownFilesIn h hmem
    obtain ⟨stem, hstem, rfl⟩ := Path.isMarkdownName_iff.mp hmarkdown
    exact ⟨above, stem, content, hnames, hstem, hdown⟩
  · rintro ⟨above, stem, content, rfl, hstem, hdown⟩
    exact mem_markdownFilesIn_of_descend (by simp) hdown
      (Path.isMarkdownName_iff.mpr ⟨stem, hstem, rfl⟩)

mutual
theorem nodup_markdownFiles : ∀ {e : Entry}, e.Proper → e.markdownFiles.Nodup
  | .file name content, _ => by
    rw [markdownFiles]
    split
    · exact List.nodup_singleton _
    · exact List.nodup_nil
  | .directory name entries, h => by
    obtain ⟨hnodup, -, hall⟩ := proper_directory h
    rw [markdownFiles]
    exact (nodup_markdownFilesIn hnodup hall).map List.cons_injective

theorem nodup_markdownFilesIn : ∀ {es : List Entry}, (es.map Entry.name).Nodup →
    (∀ e ∈ es, e.Proper) → (markdownFilesIn es).Nodup
  | [], _, _ => List.nodup_nil
  | e :: es, hnodup, hall => by
    rw [List.map_cons, List.nodup_cons] at hnodup
    rw [markdownFilesIn, List.nodup_append]
    refine ⟨nodup_markdownFiles (hall e List.mem_cons_self),
      nodup_markdownFilesIn hnodup.2 fun f hf => hall f (List.mem_cons_of_mem _ hf), ?_⟩
    intro p hp q hq heq
    obtain ⟨f, hf, hq⟩ := mem_markdownFilesIn.mp hq
    have hnames : some e.name = some f.name := by
      rw [← head?_of_mem_markdownFiles hp, heq, head?_of_mem_markdownFiles hq]
    exact hnodup.1 (Option.some.inj hnames ▸ List.mem_map_of_mem hf)
end

theorem Relisted.name_eq {e f : Entry} (h : Relisted e f) : e.name = f.name := by
  cases h <;> rfl

theorem RelistedIn.names_perm : ∀ {es fs : List Entry}, RelistedIn es fs →
    (es.map Entry.name).Perm (fs.map Entry.name)
  | _, _, .nil => .refl _
  | _, _, .cons he hes => by
    rw [List.map_cons, List.map_cons, he.name_eq]
    exact hes.names_perm.cons _
  | _, _, .swap e f es => .swap f.name e.name (es.map Entry.name)
  | _, _, .trans h k => h.names_perm.trans k.names_perm

mutual
theorem relisted_refl : ∀ e : Entry, Relisted e e
  | .file name content => .file name content
  | .directory name entries => .directory name (relistedIn_refl entries)

theorem relistedIn_refl : ∀ es : List Entry, RelistedIn es es
  | [] => .nil
  | e :: es => .cons (relisted_refl e) (relistedIn_refl es)
end

theorem relistedIn_of_perm {es fs : List Entry} (h : es.Perm fs) : RelistedIn es fs := by
  induction h with
  | nil => exact .nil
  | cons e _ ih => exact .cons (relisted_refl e) ih
  | swap e f es => exact .swap f e es
  | trans _ _ ih ih' => exact .trans ih ih'

theorem Relisted.trans {e f g : Entry} (h : Relisted e f) (k : Relisted f g) : Relisted e g := by
  cases h with
  | file => exact k
  | directory name hes =>
    cases k with
    | directory _ hfs => exact .directory name (hes.trans hfs)

theorem RelistedIn.exists_mem {e : Entry} : ∀ {es fs : List Entry}, RelistedIn es fs → e ∈ es →
    ∃ f ∈ fs, Relisted e f
  | _, _, .nil, he => by cases he
  | _, _, .cons (f := f) hef hes, he => by
    rcases List.mem_cons.mp he with rfl | he
    · exact ⟨f, List.mem_cons_self, hef⟩
    · obtain ⟨g, hg, heg⟩ := hes.exists_mem he
      exact ⟨g, List.mem_cons_of_mem _ hg, heg⟩
  | _, _, .swap f g es, he => by
    refine ⟨e, ?_, relisted_refl e⟩
    rwa [(List.Perm.swap g f es).mem_iff] at he
  | _, _, .trans h k, he => by
    obtain ⟨f, hf, hef⟩ := h.exists_mem he
    obtain ⟨g, hg, hfg⟩ := k.exists_mem hf
    exact ⟨g, hg, hef.trans hfg⟩

mutual
theorem Relisted.proper : ∀ {e f : Entry}, Relisted e f → e.Proper → f.Proper
  | _, _, .file name content, _ => .file name content
  | _, _, .directory name h, he => by
    obtain ⟨hnodup, hnames, hall⟩ := proper_directory he
    refine .directory name (h.names_perm.nodup_iff.mp hnodup) ?_ (h.proper hall)
    intro f hf
    obtain ⟨e, he, hname⟩ := List.mem_map.mp (h.names_perm.mem_iff.mpr (List.mem_map_of_mem hf))
    exact hname ▸ hnames e he

theorem RelistedIn.proper : ∀ {es fs : List Entry}, RelistedIn es fs → (∀ e ∈ es, e.Proper) →
    ∀ f ∈ fs, f.Proper
  | _, _, .nil, _ => by simp
  | _, _, .cons hef hes, hall => by
    rw [List.forall_mem_cons] at hall ⊢
    exact ⟨hef.proper hall.1, hes.proper hall.2⟩
  | _, _, .swap e f es, hall => by
    intro g hg
    exact hall g ((List.Perm.swap f e es).mem_iff.mpr hg)
  | _, _, .trans h k, hall => k.proper (h.proper hall)
end

mutual
theorem Relisted.markdownFiles_perm : ∀ {e f : Entry}, Relisted e f →
    e.markdownFiles.Perm f.markdownFiles
  | _, _, .file _ _ => .refl _
  | _, _, .directory name h => h.markdownFilesIn_perm.map (name :: ·)

theorem RelistedIn.markdownFilesIn_perm : ∀ {es fs : List Entry}, RelistedIn es fs →
    (markdownFilesIn es).Perm (markdownFilesIn fs)
  | _, _, .nil => .refl _
  | _, _, .cons hef hes => hef.markdownFiles_perm.append hes.markdownFilesIn_perm
  | _, _, .swap e f es => by
    simp only [markdownFilesIn, ← List.append_assoc]
    exact List.perm_append_comm.append_right _
  | _, _, .trans h k => h.markdownFilesIn_perm.trans k.markdownFilesIn_perm
end

theorem Relisted.rel_child {e f : Entry} (h : Relisted e f) (he : e.Proper) (name : Text) :
    Option.Rel Relisted (e.child? name) (f.child? name) := by
  have hf := h.proper he
  cases h with
  | file n c => exact .none
  | @directory n es fs hes =>
    cases hfound : (Entry.directory n es).child? name with
    | some c =>
      obtain ⟨g, hg, hcg⟩ := hes.exists_mem (List.mem_of_find?_eq_some hfound)
      have hname : g.name = name := hcg.name_eq.symm.trans (name_of_child? hfound)
      have hother := child?_of_mem (n := n) (proper_directory hf).1 hg
      rw [hname] at hother
      rw [hother]
      exact .some hcg
    | none =>
      have hmissing : (Entry.directory n fs).child? name = none := by
        rw [Entry.child?, List.find?_eq_none] at hfound ⊢
        intro g hg hgname
        obtain ⟨c, hc, hcname⟩ :=
          List.mem_map.mp (hes.names_perm.mem_iff.mpr (List.mem_map_of_mem hg))
        exact hfound c hc (by rwa [hcname])
      rw [hmissing]
      exact .none

theorem Relisted.rel_descend {e f : Entry} (h : Relisted e f) (he : e.Proper) (place : List Text) :
    Option.Rel Relisted (e.descend place) (f.descend place) := by
  induction place generalizing e f with
  | nil => exact .some h
  | cons name names ih =>
    rw [Entry.descend, Entry.descend]
    have hchild := h.rel_child he name
    cases hfound : e.child? name with
    | none =>
      rw [hfound] at hchild
      cases hother : f.child? name with
      | none => exact .none
      | some d =>
        rw [hother] at hchild
        cases hchild
    | some c =>
      rw [hfound] at hchild
      cases hother : f.child? name with
      | none =>
        rw [hother] at hchild
        cases hchild
      | some d =>
        rw [hother] at hchild
        cases hchild with
        | some hcd =>
          have hdescend : e.descend [name] = some c := by
            rw [Entry.descend, hfound]
            rfl
          exact ih hcd (proper_descend he hdescend)

end Entry

theorem mergeSort_eq_of_perm {ps qs : List (List Text)} (h : ps.Perm qs) :
    ps.mergeSort Path.lessEq = qs.mergeSort Path.lessEq := by
  refine List.Perm.eq_of_pairwise (fun p q _ _ => Path.lessEq_antisymm)
    (List.pairwise_mergeSort Path.lessEq_trans Path.lessEq_total ps)
    (List.pairwise_mergeSort Path.lessEq_trans Path.lessEq_total qs) ?_
  exact (List.mergeSort_perm ps _).trans (h.trans (List.mergeSort_perm qs _).symm)

namespace Disk

open Entry (Relisted RelistedIn)

theorem isSome_of_rel {a b : Option Entry} (h : Option.Rel Relisted a b) : b.isSome = a.isSome := by
  cases h <;> rfl

theorem follow_relisted {root root' : Entry} (h : Relisted root root') (hroot : root.Proper)
    (place steps : List Text) : follow root' place steps = follow root place steps := by
  induction steps generalizing place with
  | nil => rfl
  | cons step steps ih =>
    have hhere := h.rel_descend hroot place
    rw [follow, follow, isSome_of_rel (h.rel_descend hroot (place ++ [step]))]
    generalize root.descend place = a at hhere
    generalize root'.descend place = b at hhere
    cases hhere with
    | none => rfl
    | some hef =>
      cases hef with
      | file n c => rfl
      | directory n hes => simp only [ih]

theorem resolve_relisted {d : Disk} {root' : Entry} (h : Relisted d.root root')
    (hroot : d.root.Proper) (path : Text) :
    { d with root := root' }.resolve path = d.resolve path := by
  rw [resolve, resolve, follow_relisted h hroot]
  rfl

/-- Every directory that a path leads to, and every one below it, can be listed. -/
def Open (d : Disk) (path : Text) : Prop :=
  ∀ start below n es, d.resolve path = .ok start →
    d.root.descend (start ++ below) = some (.directory n es) → d.denial? (start ++ below) = none

mutual
theorem exists_search {d : Disk} : ∀ {e : Entry} {place : List Text}, e.Proper →
    (∀ below n es, e.descend below = some (.directory n es) → d.denial? (place ++ below) = none) →
    ∃ found, d.search place e = .ok found
  | .file name content, place, _, _ => ⟨_, rfl⟩
  | .directory name entries, place, h, hopen => by
    have hplace : d.denial? place = none := by simpa using hopen [] name entries rfl
    obtain ⟨hnodup, -, hall⟩ := Entry.proper_directory h
    have hamong : ∃ found, d.searchAmong place entries = .ok found := by
      apply exists_searchAmong hall
      intro e he below n es hdown
      apply hopen (e.name :: below) n es
      rw [Entry.descend, Entry.child?_of_mem hnodup he]
      exact hdown
    obtain ⟨found, hfound⟩ := hamong
    exact ⟨found, search_directory_eq_ok.mpr ⟨hplace, hfound⟩⟩

theorem exists_searchAmong {d : Disk} : ∀ {es : List Entry} {place : List Text},
    (∀ e ∈ es, e.Proper) →
    (∀ e ∈ es, ∀ below n fs, e.descend below = some (.directory n fs) →
      d.denial? (place ++ e.name :: below) = none) →
    ∃ found, d.searchAmong place es = .ok found
  | [], place, _, _ => ⟨_, rfl⟩
  | e :: es, place, hall, hopen => by
    rw [List.forall_mem_cons] at hall hopen
    have hfirst : ∃ found, d.search (place ++ [e.name]) e = .ok found := by
      apply exists_search hall.1
      intro below n fs hdown
      rw [List.append_assoc]
      exact hopen.1 below n fs hdown
    obtain ⟨found, hfound⟩ := hfirst
    obtain ⟨more, hmore⟩ := exists_searchAmong hall.2 hopen.2
    exact ⟨_, searchAmong_cons_eq_ok.mpr ⟨found, more, hfound, hmore, rfl⟩⟩
end

theorem exists_search_of_mem {d : Disk} {place : List Text} {e : Entry} {es : List Entry}
    (he : e ∈ es) {found : List (List Text)} (h : d.searchAmong place es = .ok found) :
    ∃ more, d.search (place ++ [e.name]) e = .ok more := by
  induction es generalizing found with
  | nil => cases he
  | cons f fs ih =>
    obtain ⟨first, more, hfirst, hmore, -⟩ := searchAmong_cons_eq_ok.mp h
    rcases List.mem_cons.mp he with rfl | he
    · exact ⟨first, hfirst⟩
    · exact ih he hmore

theorem denial?_of_search {d : Disk} {below : List Text} : ∀ {e : Entry} {place : List Text}
    {found : List (List Text)} {n : Text} {es : List Entry}, d.search place e = .ok found →
    e.descend below = some (.directory n es) → d.denial? (place ++ below) = none := by
  induction below with
  | nil =>
    intro e place found n es h hdown
    obtain rfl : e = .directory n es := Option.some.inj hdown
    rw [List.append_nil]
    exact (search_directory_eq_ok.mp h).1
  | cons name below ih =>
    intro e place found n es h hdown
    obtain ⟨c, hchild, hc⟩ := Option.bind_eq_some_iff.mp hdown
    cases e with
    | file m content => cases hchild
    | directory m fs =>
      obtain rfl : c.name = name := Entry.name_of_child? hchild
      obtain ⟨-, hamong⟩ := search_directory_eq_ok.mp h
      obtain ⟨more, hmore⟩ := exists_search_of_mem (List.mem_of_find?_eq_some hchild) hamong
      rw [List.append_cons]
      exact ih hmore hc

theorem exists_place_of_entry? {d : Disk} {path : Text} {e : Entry} (h : d.entry? path = some e) :
    ∃ start, d.resolve path = .ok start ∧ d.root.descend start = some e := by
  rw [Disk.entry?] at h
  split at h
  · next start hstart => exact ⟨start, hstart, h⟩
  · cases h

/-- A scan of a directory succeeds if, and only if, it can list every directory. -/
theorem exists_scan_iff {d : Disk} {path n : Text} {es : List Entry} (hroot : d.root.Proper)
    (h : d.entry? path = some (.directory n es)) :
    (∃ files, d.scan path = .ok files) ↔ d.Open path := by
  obtain ⟨start, hstart, hdir⟩ := exists_place_of_entry? h
  constructor
  · rintro ⟨files, hfiles⟩ place below m fs hplace hdown
    obtain rfl : start = place := Except.ok.inj (hstart.symm.trans hplace)
    rw [Entry.descend_append, hdir] at hdown
    rw [scan_directory hstart hdir] at hfiles
    split at hfiles
    · cases hfiles
    · next found hfound => exact denial?_of_search hfound hdown
  · intro hopen
    have hfound : ∃ found, d.search start (.directory n es) = .ok found := by
      apply exists_search (Entry.proper_descend hroot hdir)
      intro below m fs hdown
      apply hopen start below m fs hstart
      rw [Entry.descend_append, hdir]
      exact hdown
    obtain ⟨found, hfound⟩ := hfound
    rw [scan_directory hstart hdir, hfound]
    exact ⟨_, rfl⟩

theorem scan_of_open {d : Disk} {path n : Text} {es : List Entry} (hroot : d.root.Proper)
    (h : d.entry? path = some (.directory n es)) (hopen : d.Open path) :
    d.scan path = .ok ((scanEntries es).map fun names => names.foldl Path.join path) := by
  obtain ⟨files, hfiles⟩ := (exists_scan_iff hroot h).mpr hopen
  obtain ⟨start, hstart, hdir⟩ := exists_place_of_entry? h
  rw [scan_directory hstart hdir] at hfiles ⊢
  split at hfiles
  · cases hfiles
  · rfl

theorem open_relisted {d : Disk} {root' : Entry} (h : Relisted d.root root')
    (hroot : d.root.Proper) {path : Text} (hopen : d.Open path) :
    Disk.Open { d with root := root' } path := by
  intro start below n fs hstart hdown
  rw [resolve_relisted h hroot] at hstart
  have hrel := h.rel_descend hroot (start ++ below)
  rw [hdown] at hrel
  cases hentry : d.root.descend (start ++ below) with
  | none =>
    rw [hentry] at hrel
    cases hrel
  | some e =>
    rw [hentry] at hrel
    cases hrel with
    | some hef =>
      cases hef with
      | directory _ hes => exact hopen start below n _ hstart hentry

theorem scan_relisted {d : Disk} {root' : Entry} (h : Relisted d.root root') (hroot : d.root.Proper)
    {path n : Text} {es : List Entry} (hentry : d.entry? path = some (.directory n es))
    (hopen : d.Open path) : { d with root := root' }.scan path = d.scan path := by
  obtain ⟨start, hstart, hdir⟩ := exists_place_of_entry? hentry
  have hrel := h.rel_descend hroot start
  rw [hdir] at hrel
  cases hother : root'.descend start with
  | none =>
    rw [hother] at hrel
    cases hrel
  | some f =>
    rw [hother] at hrel
    cases hrel with
    | some hef =>
      cases hef with
      | @directory _ _ fs hes =>
        have hthere : Disk.entry? { d with root := root' } path = some (.directory n fs) := by
          simp only [Disk.entry?, resolve_relisted h hroot, hstart, hother]
        rw [scan_of_open hroot hentry hopen,
          scan_of_open (h.proper hroot) hthere (open_relisted h hroot hopen), scanEntries,
          scanEntries, mergeSort_eq_of_perm hes.markdownFilesIn_perm]

theorem path_ne_nil_of_entry? {d : Disk} {path : Text} {e : Entry} (h : d.entry? path = some e) :
    path ≠ [] := by
  rintro rfl
  cases h

theorem proper_of_entry? {d : Disk} {path : Text} {e : Entry} (hroot : d.root.Proper)
    (h : d.entry? path = some e) : e.Proper := by
  rw [Disk.entry?] at h
  split at h
  · exact Entry.proper_descend hroot h
  · cases h

/-- A scan of a directory succeeds exactly if each directory in it can be listed. Then it gives the
path of each file below that has a stem before the extension `md`, once, and nothing else; the paths
come in the order of the bytes of their components, and the order in which the disk lists its
directories makes no difference. -/
theorem scan_is_exact {d : Disk} {path n : Text} {es : List Entry} (hroot : d.root.Proper)
    (h : d.entry? path = some (.directory n es)) :
    ((∃ files, d.scan path = .ok files) ↔ d.Open path) ∧
    (d.Open path → ∃ found : List (List Text),
      d.scan path = .ok (found.map fun names => names.foldl Path.join path) ∧
      (∀ names, names ∈ found ↔ ∃ above stem content,
        names = above ++ [stem ++ ".md".toList] ∧ stem ≠ [] ∧
        (Entry.directory n es).descend names = some (.file (stem ++ ".md".toList) content)) ∧
      found.Nodup ∧
      (found.map fun names => names.foldl Path.join path).Pairwise Path.Before ∧
      ∀ root', Relisted d.root root' → { d with root := root' }.scan path = d.scan path) := by
  have hpath := path_ne_nil_of_entry? h
  have hproper := proper_of_entry? hroot h
  obtain ⟨hnodup, -, hall⟩ := Entry.proper_directory hproper
  have hmem : ∀ names, names ∈ scanEntries es ↔ ∃ above stem content,
      names = above ++ [stem ++ ".md".toList] ∧ stem ≠ [] ∧
      (Entry.directory n es).descend names = some (.file (stem ++ ".md".toList) content) := by
    intro names
    rw [scanEntries, List.mem_mergeSort]
    exact Entry.mem_markdownFilesIn_iff hproper
  have hnames : ∀ names ∈ scanEntries es, ∀ name ∈ names, Path.IsName name := by
    intro names hfound
    obtain ⟨_, _, _, -, -, hdown⟩ := (hmem names).mp hfound
    exact Entry.isName_of_descend hproper hdown
  have honce : (scanEntries es).Nodup :=
    (List.mergeSort_perm _ _).nodup_iff.mpr (Entry.nodup_markdownFilesIn hnodup hall)
  have hsorted : (scanEntries es).Pairwise fun p q => Path.lessEq p q = true :=
    List.pairwise_mergeSort Path.lessEq_trans Path.lessEq_total _
  refine ⟨exists_scan_iff hroot h, ?_⟩
  intro hopen
  refine ⟨scanEntries es, scan_of_open hroot h hopen, hmem, honce, ?_, ?_⟩
  · rw [List.pairwise_map]
    refine (hsorted.and honce).imp_of_mem ?_
    rintro p q hp hq ⟨hle, hne⟩
    exact Path.before_foldl_join hpath (hnames p hp) (hnames q hq) hle hne
  · intro root' hroot'
    exact scan_relisted hroot' hroot h hopen

/-- Entries of a directory: a name with no stem, a directory with the name of a Markdown file, and
two files of which the paths come in another order than their texts. -/
def shelf : List Entry :=
  [.file ".md".toList [], .file "a.md".toList [],
    .directory "x.md".toList [.file "c.txt".toList [], .file "c.md".toList []],
    .directory "a".toList [.file "z.md".toList []]]

def shelved (es : List Entry) : Disk := ⟨.directory [] [.directory "docs".toList es], ⟨[], []⟩⟩

theorem scan_is_exact_shelf :
    (shelved shelf).root.Proper ∧
    Disk.entry? (shelved shelf) "docs".toList = some (.directory "docs".toList shelf) ∧
    (shelved shelf).Open "docs".toList ∧
    (shelved shelf).scan "docs".toList =
      .ok ["docs/a/z.md".toList, "docs/a.md".toList, "docs/x.md/c.md".toList] ∧
    ["docs/a/z.md".toList, "docs/a.md".toList, "docs/x.md/c.md".toList].Pairwise Path.Before ∧
    (shelved shelf.reverse).scan "docs".toList = (shelved shelf).scan "docs".toList := by
  have hproper : (shelved shelf).root.Proper := by
    refine .directory _ (by decide) (by decide) ?_
    rw [List.forall_mem_singleton]
    refine .directory _ (by decide) (by decide) ?_
    simp only [shelf, List.forall_mem_cons]
    refine ⟨.file _ _, .file _ _, .directory _ (by decide) (by decide) ?_,
      .directory _ (by decide) (by decide) ?_, by simp⟩
    · simp [Entry.Proper.file]
    · simp [Entry.Proper.file]
  have hentry : Disk.entry? (shelved shelf) "docs".toList =
      some (.directory "docs".toList shelf) := rfl
  have hscan : (shelved shelf).scan "docs".toList =
      .ok ["docs/a/z.md".toList, "docs/a.md".toList, "docs/x.md/c.md".toList] := by cbv
  have hopen : (shelved shelf).Open "docs".toList := by
    intro start below n es _ _
    rfl
  obtain ⟨-, hresult⟩ := scan_is_exact hproper hentry
  obtain ⟨found, hfound, -, -, hsorted, hother⟩ := hresult hopen
  rw [hscan] at hfound
  have hreverse : Relisted (shelved shelf).root (shelved shelf.reverse).root :=
    .directory _ (.cons (.directory _ (Entry.relistedIn_of_perm (List.reverse_perm _).symm)) .nil)
  refine ⟨hproper, hentry, hopen, hscan, ?_, hother _ hreverse⟩
  rw [Except.ok.inj hfound]
  exact hsorted

end Disk
end CanonMark
