import Mathlib.Data.List.Infix
import Mathlib.Data.List.TakeWhile

/-!
# VetHealth.Js.Path

**Paths of `node:path`, as on POSIX.** A path is split at its slashes. `normalize` resolves `.` and
`..` and drops empty parts, `join` normalises what it joins, `resolve` makes a path absolute,
`relative` climbs from one absolute path to another, and `extname` cuts the extension off the last
part.

A part that can be the name of a file is an `IsName`. A path made of names is its own normal form
(`normalize_render`), so that joining one more name to it appends the name.
-/

namespace Js.Path

/-! ### The functions -/

/-- One more part of a path; what the parts before it come to is kept in reverse. -/
def resolveDot (isAbsolute : Bool) (done : List (List Char)) (part : List Char) :
    List (List Char) :=
  if part = [] ∨ part = ['.'] then done
  else if part = ['.', '.'] then
    match done with
    | last :: rest => if last = ['.', '.'] then part :: done else rest
    | [] => if isAbsolute then [] else [part]
  else part :: done

def resolveDots (isAbsolute : Bool) (parts : List (List Char)) : List (List Char) :=
  (parts.foldl (resolveDot isAbsolute) []).reverse

def render (parts : List (List Char)) : List Char := ['/'].intercalate parts

def normalize (path : List Char) : List Char :=
  let isAbsolute : Bool := path.head? = some '/'
  let trailing : Bool := path.getLast? = some '/'
  let text := render (resolveDots isAbsolute (path.splitOn '/'))
  if text = [] then
    if isAbsolute then ['/'] else if trailing then ['.', '/'] else ['.']
  else (if isAbsolute then ['/'] else []) ++ text ++ (if trailing then ['/'] else [])

def join (paths : List (List Char)) : List Char := normalize (render (paths.filter (· ≠ [])))

/-- The names of a path. -/
def names (path : List Char) : List (List Char) := (path.splitOn '/').filter (· ≠ [])

def climb : List (List Char) → List (List Char) → List (List Char)
  | name :: source, name' :: target =>
      -- up from what is left of the source at the first difference, down to the target
      if name = name' then climb source target
      else ((name :: source).map fun _ => ['.', '.']) ++ name' :: target
  | source, target => (source.map fun _ => ['.', '.']) ++ target

/-- The way between two absolute paths that are in normal form: up as far as they differ, and down
again. -/
def relative (source target : List Char) : List Char := render (climb (names source) (names target))

/-- The last part of a path. -/
def basename (path : List Char) : List Char :=
  ((path.reverse.dropWhile (· = '/')).takeWhile (· ≠ '/')).reverse

def extname (path : List Char) : List Char :=
  let name := basename path
  if name = ['.', '.'] ∨ '.' ∉ name.drop 1 then []
  else '.' :: (name.reverse.takeWhile (· ≠ '.')).reverse

/-- The last part of a path without a suffix, which is shorter than the path. -/
def basenameWithout (path suffix : List Char) : List Char :=
  let name := basename path
  if suffix <:+ name ∧ suffix ≠ name then name.take (name.length - suffix.length) else name

/-! ### Paths made of names -/

/-- What a file or a directory can be called: a part of a path that says neither to stay nor to go
up, without a separator in it. -/
structure IsName (name : List Char) : Prop where
  ne_nil : name ≠ []
  no_slash : '/' ∉ name
  ne_dot : name ≠ ['.']
  ne_dots : name ≠ ['.', '.']

instance (name : List Char) : Decidable (IsName name) :=
  decidable_of_iff (name ≠ [] ∧ '/' ∉ name ∧ name ≠ ['.'] ∧ name ≠ ['.', '.'])
    ⟨fun ⟨h₁, h₂, h₃, h₄⟩ => ⟨h₁, h₂, h₃, h₄⟩, fun ⟨h₁, h₂, h₃, h₄⟩ => ⟨h₁, h₂, h₃, h₄⟩⟩

/-- A path without `.` and `..`. Joining a name to such a path goes down and never up, whatever the
name's other characters are. -/
def IsPlain (path : List Char) : Prop := ∀ part ∈ path.splitOn '/', part = [] ∨ IsName part

theorem IsName.isPlain {name : List Char} (h : IsName name) : IsPlain name := by
  intro part hpart
  rw [List.splitOn_eq_singleton h.no_slash, List.mem_singleton] at hpart
  exact Or.inr (hpart ▸ h)

@[simp] theorem IsName.names {name : List Char} (h : IsName name) : names name = [name] := by
  rw [Path.names, List.splitOn_eq_singleton h.no_slash]
  simp [h.ne_nil]

theorem names_append (path rest : List Char) :
    names (path ++ '/' :: rest) = names path ++ names rest := by
  rw [names, List.splitOn_append_cons_self, List.filter_append, names, names]

theorem IsPlain.append {path rest : List Char} (h : IsPlain path) (hrest : IsPlain rest) :
    IsPlain (path ++ '/' :: rest) := by
  intro part hpart
  rw [List.splitOn_append_cons_self, List.mem_append] at hpart
  exact hpart.elim (h part) (hrest part)

theorem resolveDots_of_names {parts : List (List Char)} (isAbsolute : Bool)
    (h : ∀ part ∈ parts, part = [] ∨ IsName part) :
    resolveDots isAbsolute parts = parts.filter (· ≠ []) := by
  have hfold : ∀ done, parts.foldl (resolveDot isAbsolute) done =
      (parts.filter (· ≠ [])).reverse ++ done := by
    induction parts with
    | nil => exact fun done => rfl
    | cons part parts ih =>
        intro done
        rw [List.foldl_cons, ih fun p hp => h p (List.mem_cons_of_mem _ hp)]
        rcases h part List.mem_cons_self with rfl | hname
        · simp [resolveDot]
        · simp [resolveDot, hname.ne_nil, hname.ne_dot, hname.ne_dots]
  rw [resolveDots, hfold, List.append_nil, List.reverse_reverse]

theorem render_eq_nil {parts : List (List Char)} (h : ∀ part ∈ parts, part ≠ []) :
    render parts = [] ↔ parts = [] := by
  cases parts with
  | nil => simp [render]
  | cons part parts =>
      have hpart := h part List.mem_cons_self
      cases parts with
      | nil => simp [render, hpart]
      | cons next parts => simp [render, List.intercalate_cons_cons, hpart]

theorem render_append_singleton {parts : List (List Char)} (hne : parts ≠ []) (name : List Char) :
    render (parts ++ [name]) = render parts ++ '/' :: name := by
  induction parts with
  | nil => exact absurd rfl hne
  | cons part parts ih =>
      cases parts with
      | nil => simp [render, List.intercalate_cons_cons]
      | cons next parts =>
          have hrest := ih (List.cons_ne_nil _ _)
          simp only [render, List.cons_append, List.intercalate_cons_cons] at hrest ⊢
          simp [hrest]

/-- One name more. The name is the last part of the joined path, so that a file stays in the
directory that it was written to. -/
theorem join_name {path name : List Char} (h : IsPlain path) (hne : path ≠ []) (hname : IsName name) :
    join [path, name] =
      (if path.head? = some '/' then ['/'] else []) ++ render (names path ++ [name]) := by
  have hfilter : [path, name].filter (· ≠ []) = [path, name] := by simp [hne, hname.ne_nil]
  have htext : render [path, name] = path ++ '/' :: name := by
    simp [render, List.intercalate_cons_cons]
  have hhead : (path ++ '/' :: name).head? = path.head? := by
    cases path with
    | nil => exact absurd rfl hne
    | cons c path => rfl
  have hlast : (path ++ '/' :: name).getLast? ≠ some '/' := by
    intro hslash
    rw [List.getLast?_append_cons, List.getLast?_cons_of_ne_nil hname.ne_nil] at hslash
    exact hname.no_slash (List.mem_of_getLast? hslash)
  have hparts : resolveDots (decide (path.head? = some '/')) ((path ++ '/' :: name).splitOn '/') =
      names path ++ [name] := by
    rw [resolveDots_of_names _ (h.append hname.isPlain), ← hname.names, ← names_append, names]
  have hrender : render (names path ++ [name]) ≠ [] := by
    rw [Ne, render_eq_nil]
    · simp
    · intro part hpart
      rcases List.mem_append.1 hpart with hpart | hpart
      · simpa using (List.mem_filter.1 hpart).2
      · exact List.mem_singleton.1 hpart ▸ hname.ne_nil
  rw [join, hfilter, htext, normalize]
  simp only [hhead, hparts, if_neg hrender, decide_eq_true_eq, if_neg hlast, List.append_nil]

theorem isPlain_render {parts : List (List Char)} (h : ∀ part ∈ parts, IsName part) :
    IsPlain (render parts) := by
  by_cases hne : parts = []
  · subst hne
    exact fun part hpart => Or.inl (by simpa [render] using hpart)
  · intro part hpart
    rw [render, List.splitOn_intercalate '/' (fun p hp => (h p hp).no_slash) hne] at hpart
    exact Or.inr (h part hpart)

theorem names_render {parts : List (List Char)} (h : ∀ part ∈ parts, IsName part) :
    names (render parts) = parts := by
  by_cases hne : parts = []
  · subst hne
    rfl
  · rw [names, render, List.splitOn_intercalate '/' (fun p hp => (h p hp).no_slash) hne]
    exact List.filter_eq_self.2 fun part hpart => by simp [(h part hpart).ne_nil]

theorem mem_render {parts : List (List Char)} {c : Char} (h : c ∈ render parts) :
    c = '/' ∨ ∃ part ∈ parts, c ∈ part := by
  induction parts with
  | nil => cases h
  | cons part parts ih =>
      cases parts with
      | nil => exact Or.inr ⟨part, List.mem_cons_self, by simpa [render] using h⟩
      | cons next parts =>
          rw [render, List.intercalate_cons_cons, List.append_assoc, List.mem_append,
            List.singleton_append, List.mem_cons] at h
          rcases h with h | rfl | h
          · exact Or.inr ⟨part, List.mem_cons_self, h⟩
          · exact Or.inl rfl
          · rcases ih h with hslash | ⟨p, hp, hc⟩
            · exact Or.inl hslash
            · exact Or.inr ⟨p, List.mem_cons_of_mem _ hp, hc⟩

theorem head_render {part : List Char} (parts : List (List Char)) (h : part ≠ []) :
    (render (part :: parts)).head? = part.head? := by
  cases part with
  | nil => exact absurd rfl h
  | cons c part => simp [render]

theorem getLast_render (front : List (List Char)) {last : List Char} (h : last ≠ []) :
    (render (front ++ [last])).getLast? = last.getLast? := by
  by_cases hfront : front = []
  · subst hfront
    simp [render]
  · rw [render_append_singleton hfront, List.getLast?_append_cons, List.getLast?_cons_of_ne_nil h]

theorem render_head {parts : List (List Char)} (hne : parts ≠ [])
    (h : ∀ part ∈ parts, IsName part) : (render parts).head? ≠ some '/' := by
  cases parts with
  | nil => exact absurd rfl hne
  | cons part parts =>
      have hpart := h part List.mem_cons_self
      rw [head_render parts hpart.ne_nil]
      exact fun hslash => hpart.no_slash (List.mem_of_head? hslash)

/-- A path made of names is in normal form: there is nothing in it to resolve. -/
theorem normalize_render {parts : List (List Char)} (hne : parts ≠ [])
    (h : ∀ part ∈ parts, IsName part) : normalize (render parts) = render parts := by
  have hhead := render_head hne h
  have hlast : (render parts).getLast? ≠ some '/' := by
    rcases List.eq_nil_or_concat parts with rfl | ⟨front, last, rfl⟩
    · exact absurd rfl hne
    · rw [List.concat_eq_append] at h ⊢
      have hpart := h last (List.mem_append_right _ List.mem_cons_self)
      rw [getLast_render front hpart.ne_nil]
      exact fun hslash => hpart.no_slash (List.mem_of_getLast? hslash)
  have hnonempty : render parts ≠ [] :=
    fun hnil => hne ((render_eq_nil fun part hpart => (h part hpart).ne_nil).1 hnil)
  have hparts : ∀ isAbsolute, resolveDots isAbsolute ((render parts).splitOn '/') = parts := by
    intro isAbsolute
    rw [resolveDots_of_names isAbsolute (isPlain_render h)]
    exact names_render h
  rw [normalize]
  simp only [hparts, if_neg hnonempty, decide_eq_true_eq, if_neg hhead, if_neg hlast,
    List.nil_append, List.append_nil]

theorem join_names {parts : List (List Char)} (hne : parts ≠ []) (h : ∀ part ∈ parts, IsName part) :
    join parts = render parts := by
  have hfilter : parts.filter (· ≠ []) = parts :=
    List.filter_eq_self.2 fun part hpart => by simp [(h part hpart).ne_nil]
  rw [join, hfilter, normalize_render hne h]

theorem join_render {parts : List (List Char)} (hne : parts ≠ [])
    (h : ∀ part ∈ parts, IsName part) : join [render parts] = render parts := by
  have hnonempty : render parts ≠ [] :=
    fun hnil => hne ((render_eq_nil fun part hpart => (h part hpart).ne_nil).1 hnil)
  have hfilter : [render parts].filter (· ≠ []) = [render parts] := by simp [hnonempty]
  rw [join, hfilter, render, List.intercalate_singleton, normalize_render hne h]

theorem join_render_name {parts : List (List Char)} (hne : parts ≠ [])
    (h : ∀ part ∈ parts, IsName part) {name : List Char} (hname : IsName name) :
    join [render parts, name] = render (parts ++ [name]) := by
  have hnonempty : render parts ≠ [] :=
    fun hnil => hne ((render_eq_nil fun part hpart => (h part hpart).ne_nil).1 hnil)
  have hall : ∀ part ∈ parts ++ [name], IsName part := by
    intro part hpart
    rcases List.mem_append.1 hpart with hpart | hpart
    · exact h part hpart
    · exact List.mem_singleton.1 hpart ▸ hname
  have htext : render [render parts, name] = render (parts ++ [name]) := by
    rw [render_append_singleton hne]
    simp [render]
  have hfilter : [render parts, name].filter (· ≠ []) = [render parts, name] := by
    simp [hnonempty, hname.ne_nil]
  rw [join, hfilter, htext, normalize_render (by simp) hall]

/-! ### Absolute paths -/

/-- An absolute path in normal form. Every place that the scripts compute is one, since they resolve
their arguments against the working directory. -/
structure Place where
  parts : List (List Char)
  isName : ∀ part ∈ parts, IsName part

namespace Place

def text (place : Place) : List Char := '/' :: render place.parts

def add (place : Place) (name : List Char) (h : IsName name) : Place where
  parts := place.parts ++ [name]
  isName part hpart := by
    rcases List.mem_append.1 hpart with hpart | hpart
    · exact place.isName part hpart
    · exact List.mem_singleton.1 hpart ▸ h

theorem names_text (place : Place) : names place.text = place.parts := by
  have happend := names_append [] (render place.parts)
  rw [names_render place.isName] at happend
  exact happend

theorem join_name (place : Place) {name : List Char} (h : IsName name) :
    join [place.text, name] = (place.add name h).text := by
  have hplain : IsPlain place.text := by
    have hnil : IsPlain [] := by
      intro part hpart
      exact Or.inl (by simpa using hpart)
    exact hnil.append (isPlain_render place.isName)
  rw [Path.join_name hplain (List.cons_ne_nil _ _) h, names_text]
  rfl

end Place

theorem climb_append (source rest : List (List Char)) : climb source (source ++ rest) = rest := by
  induction source with
  | nil => cases rest <;> rfl
  | cons name source ih => rw [List.cons_append, climb, if_pos rfl, ih]

/-- The way from a directory to what lies below it is made of the names below it, with no `..` in
front. -/
theorem relative_below {place below : Place} {rest : List (List Char)}
    (h : below.parts = place.parts ++ rest) : relative place.text below.text = render rest := by
  rw [relative, place.names_text, below.names_text, h, climb_append]

/-! ### Resolving -/

theorem no_slash_of_mem_splitOn {path part : List Char} (h : part ∈ path.splitOn '/') :
    '/' ∉ part := by
  induction path generalizing part with
  | nil =>
      rw [List.splitOn_nil, List.mem_singleton] at h
      rw [h]
      exact List.not_mem_nil
  | cons c path ih =>
      rw [List.splitOn_cons_eq_if_modifyHead] at h
      split at h
      · rcases List.mem_cons.1 h with rfl | h
        · exact List.not_mem_nil
        · exact ih h
      · rename_i hc
        cases hsplit : path.splitOn '/' with
        | nil => exact absurd hsplit (List.splitOn_ne_nil _ _)
        | cons first parts =>
            rw [hsplit] at h ih
            rcases List.mem_cons.1 h with rfl | h
            · rw [List.mem_cons, not_or]
              exact ⟨fun hslash => hc (beq_iff_eq.2 hslash.symm), ih List.mem_cons_self⟩
            · exact ih (List.mem_cons_of_mem _ h)

/-- An absolute path comes to names. -/
theorem isName_resolveDots (path : List Char) :
    ∀ part ∈ resolveDots true (path.splitOn '/'), IsName part := by
  -- The parts are taken one by one; what is done so far are names.
  have hfold : ∀ parts done : List (List Char), (∀ part ∈ parts, '/' ∉ part) →
      (∀ part ∈ done, IsName part) → ∀ part ∈ parts.foldl (resolveDot true) done, IsName part := by
    intro parts
    induction parts with
    | nil => exact fun done _ hdone => hdone
    | cons next parts ih =>
        intro done hparts hdone
        refine ih _ (fun p hp => hparts p (List.mem_cons_of_mem _ hp)) ?_
        rw [resolveDot.eq_def]
        by_cases hskip : next = [] ∨ next = ['.']
        · rw [if_pos hskip]
          exact hdone
        -- Two dots take the last name back, and nothing at the root.
        by_cases hdots : next = ['.', '.']
        · rw [if_neg hskip, if_pos hdots]
          cases done with
          | nil => exact fun part hpart => absurd hpart List.not_mem_nil
          | cons last rest =>
              dsimp only
              rw [if_neg (hdone last List.mem_cons_self).ne_dots]
              exact fun part hpart => hdone part (List.mem_cons_of_mem _ hpart)
        · rw [if_neg hskip, if_neg hdots]
          exact List.forall_mem_cons.2 ⟨⟨fun h => hskip (Or.inl h), hparts next List.mem_cons_self,
            fun h => hskip (Or.inr h), hdots⟩, hdone⟩
  intro part hpart
  exact hfold _ [] (fun p hp => no_slash_of_mem_splitOn hp) (fun p hp => absurd hp List.not_mem_nil)
    part (List.mem_reverse.1 hpart)

/-- `path.resolve(path)` in a working directory. -/
def resolve (cwd : Place) (path : List Char) : Place where
  parts := resolveDots true ((if path.head? = some '/' then path else
    cwd.text ++ '/' :: path).splitOn '/')
  isName := isName_resolveDots _

/-! ### Extensions -/

theorem dropWhile_of_no_slash {cs : List Char} (rest : List Char) (hne : cs ≠ [])
    (h : '/' ∉ cs) : (cs ++ rest).dropWhile (· = '/') = cs ++ rest := by
  cases cs with
  | nil => exact absurd rfl hne
  | cons c cs =>
      have hc : c ≠ '/' := fun hslash => h (hslash ▸ List.mem_cons_self)
      simp [hc]

/-- The last part of a path that ends with a name. -/
theorem basename_append {lead name : List Char} (h : IsName name)
    (hlead : lead.reverse.takeWhile (· ≠ '/') = []) : basename (lead ++ name) = name := by
  have hslash : '/' ∉ name.reverse := fun hmem => h.no_slash (List.mem_reverse.1 hmem)
  have hne : name.reverse ≠ [] := fun hnil => h.ne_nil (List.reverse_eq_nil_iff.1 hnil)
  have hall : ∀ c ∈ name.reverse, decide (c ≠ '/') = true := by
    intro c hc
    exact decide_eq_true fun heq => hslash (heq ▸ hc)
  rw [basename, List.reverse_append, dropWhile_of_no_slash _ hne hslash,
    List.takeWhile_append_of_pos hall, hlead, List.append_nil, List.reverse_reverse]

theorem IsName.basename_eq {name : List Char} (h : IsName name) : basename name = name :=
  @basename_append [] _ h rfl

theorem extname_append {lead name : List Char} (h : IsName name)
    (hlead : lead.reverse.takeWhile (· ≠ '/') = []) : extname (lead ++ name) = extname name := by
  rw [extname, extname, basename_append h hlead, h.basename_eq]

theorem from_last_dot {name : List Char} (h : '.' ∈ name) :
    '.' :: (name.reverse.takeWhile (· ≠ '.')).reverse <:+ name := by
  obtain ⟨ending, front, hsplit, hdot⟩ := List.eq_append_cons_of_mem (List.mem_reverse.2 h)
  have hall : ∀ c ∈ ending, decide (c ≠ '.') = true := fun c hc =>
    decide_eq_true fun heq => hdot (heq ▸ hc)
  have htake : name.reverse.takeWhile (· ≠ '.') = ending := by
    rw [hsplit, List.takeWhile_append_of_pos hall]
    simp
  refine ⟨front.reverse, ?_⟩
  rw [htake]
  simpa using congrArg List.reverse hsplit.symm

/-- The extension of a name is what it ends with from its last dot on. -/
theorem extname_isSuffix {name : List Char} (h : IsName name) : extname name <:+ name := by
  rw [extname, h.basename_eq]
  split
  · exact List.nil_suffix
  · rename_i hdot
    exact from_last_dot (List.mem_of_mem_drop (not_not.1 (not_or.1 hdot).2))

/-- What a path has after its last slash. -/
def lastPart (path : List Char) : List Char := (path.reverse.takeWhile (· ≠ '/')).reverse

/-- The last part of a text that ends with a dot and something without a slash. -/
theorem basename_of_ending {ending : List Char} (rest : List Char) (hne : ending ≠ [])
    (hslash : '/' ∉ ending) :
    basename (rest ++ '.' :: ending) = lastPart rest ++ '.' :: ending := by
  have hrev : (rest ++ '.' :: ending).reverse = ending.reverse ++ '.' :: rest.reverse := by simp
  have hall : ∀ c ∈ ending.reverse, decide (c ≠ '/') = true :=
    fun c hc => decide_eq_true fun heq => hslash (heq ▸ List.mem_reverse.1 hc)
  rw [basename, hrev, dropWhile_of_no_slash _ (by simpa using hne) (by simpa using hslash),
    List.takeWhile_append_of_pos hall]
  simp [lastPart]

/-- The extension of a text that ends with a dot and something without a dot. -/
theorem extname_of_ending {text ending : List Char} (hending : '.' :: ending <:+ text)
    (hne : ending ≠ []) (hdot : '.' ∉ ending) (hslash : '/' ∉ ending) :
    extname text = [] ∨ extname text = '.' :: ending := by
  obtain ⟨rest, rfl⟩ := hending
  have hall : ∀ c ∈ ending.reverse, decide (c ≠ '.') = true :=
    fun c hc => decide_eq_true fun heq => hdot (heq ▸ List.mem_reverse.1 hc)
  have hrev : (lastPart rest ++ '.' :: ending).reverse =
      ending.reverse ++ '.' :: (lastPart rest).reverse := by simp
  rw [extname, basename_of_ending rest hne hslash, hrev, List.takeWhile_append_of_pos hall]
  split
  · exact Or.inl rfl
  · refine Or.inr ?_
    simp

/-- What is cut off a name leaves something of it. -/
theorem extname_front {name : List Char} (hname : IsName name) :
    ∃ front, front ≠ [] ∧ name = front ++ extname name := by
  obtain ⟨front, hfront⟩ := extname_isSuffix hname
  refine ⟨front, ?_, hfront.symm⟩
  rintro rfl
  -- the extension would be the whole name, but its only dot is not the first character
  rw [List.nil_append, extname, hname.basename_eq] at hfront
  split at hfront
  · exact hname.ne_nil hfront.symm
  · rename_i hdot
    have hrest : '.' ∈ name.drop 1 := not_not.1 (not_or.1 hdot).2
    rw [← hfront, List.drop_one, List.tail_cons, List.mem_reverse] at hrest
    simpa using List.mem_takeWhile_imp hrest

/-- The extension that is put behind a name. -/
theorem extname_append_extension {front ending : List Char} (hfront : front ≠ [])
    (hno : '/' ∉ front) (hne : ending ≠ []) (hdot : '.' ∉ ending) (hslash : '/' ∉ ending) :
    IsName (front ++ '.' :: ending) ∧
      extname (front ++ '.' :: ending) = '.' :: ending := by
  obtain ⟨c, front, rfl⟩ := List.exists_cons_of_ne_nil hfront
  obtain ⟨d, ending, rfl⟩ := List.exists_cons_of_ne_nil hne
  have hname : IsName (c :: front ++ '.' :: d :: ending) := by
    refine ⟨by simp, ?_, by simp, ?_⟩
    · intro hmem
      rcases List.mem_append.1 hmem with hmem | hmem
      · exact hno hmem
      · exact hslash (List.mem_of_ne_of_mem (by decide) hmem)
    · intro hdots
      have hlength := congrArg List.length hdots
      simp only [List.length_append, List.length_cons, List.length_nil] at hlength
      omega
  refine ⟨hname, (extname_of_ending (List.suffix_append _ _) hne hdot hslash).resolve_left ?_⟩
  have hinner : '.' ∈ (c :: front ++ '.' :: d :: ending).drop 1 := by simp
  rw [extname, hname.basename_eq, if_neg (not_or.2 ⟨hname.ne_dots, not_not.2 hinner⟩)]
  exact List.cons_ne_nil _ _

/-- `/srv`, from where the samples of the scripts are run. -/
def Place.srv : Place := ⟨["srv".toList], by decide⟩

end Js.Path
