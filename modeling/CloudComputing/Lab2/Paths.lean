import CloudComputing.Lib.Path
import CloudComputing.Lab2.Dealer

/-!
# Paths

Where the path that `Get_dealer` opens leads.  It stands behind `./src`, the
root of what the server gives out, but nothing takes `..` out of the URL; and a
URL without `.` that does not end with `/` gets `./index.html` behind it, so its
last name gets a dot.
-/

namespace CloudComputing
namespace Lab2
namespace Dealer

/-- Where a path of the file system leads. -/
def lexical (path : Bytes) : Place Bytes :=
  Path.lexical 47 46 path

/-- The names of the document root. -/
def documentRoot : List Bytes := [str "src"]

/-- The `index.html` of a directory. -/
def indexPath (url : Bytes) : Bytes :=
  str "./src" ++ (url ++ str "/index.html")

/-- The path opened stays under the document root, and for a URL without `.` it
denotes the `index.html` of the directory, as it does with a slash behind the
URL. -/
def Resolves (url : Bytes) : Prop :=
  (lexical (getPath url)).Under documentRoot ∧
    (46 ∉ url → lexical (getPath url) = lexical (indexPath url) ∧
      lexical (getPath (url ++ str "/")) = lexical (getPath url))

/-- A URL without `.` ends with a slash.  One with `.` leads no higher than to
where it begins, or one step higher and then back into `src`. -/
def Confined (url : Bytes) : Prop :=
  (46 ∉ url → url.getLast? = some 47) ∧
    (46 ∈ url → (lexical url).ups = 0 ∨
      (lexical url).ups = 1 ∧ documentRoot <+: (lexical url).names)

/-! ## The path that is opened -/

theorem find_dot_eq_none_iff (url : Bytes) :
    Bytes.find (str ".") url = none ↔ 46 ∉ url := by
  constructor
  · intro absent member
    obtain ⟨before, later, split⟩ := List.append_of_mem member
    have occurs : str "." <+: url.drop before.length := by
      rw [split, List.drop_left]
      exact ⟨later, rfl⟩
    obtain ⟨position, _, found⟩ := Bytes.exists_find_of_prefix occurs
    rw [absent] at found
    cases found
  · intro absent
    cases found : Bytes.find (str ".") url with
    | none => rfl
    | some position =>
        have first := Bytes.find_getElem? found
          (show 0 < (str ".").length by decide)
        exact absurd (List.mem_of_getElem? first) absent

theorem getPath_of_dot
    {url : Bytes}
    (dot : 46 ∈ url) :
    getPath url = str "./src" ++ url := by
  unfold getPath
  rw [if_neg (mt (find_dot_eq_none_iff url).mp (not_not_intro dot))]

theorem getPath_of_slash
    {url : Bytes}
    (noDot : 46 ∉ url)
    (slash : url.getLast? = some 47) :
    getPath url = str "./src" ++ (url ++ str "index.html") := by
  unfold getPath
  rw [if_pos ((find_dot_eq_none_iff url).mpr noDot), if_pos (Or.inl slash)]

theorem getPath_of_name
    {url : Bytes}
    (noDot : 46 ∉ url)
    (nonempty : url ≠ [])
    (noSlash : url.getLast? ≠ some 47) :
    getPath url = str "./src" ++ (url ++ str "./index.html") := by
  unfold getPath
  rw [if_pos ((find_dot_eq_none_iff url).mpr noDot), if_neg]
  rintro (slash | empty)
  · exact noSlash slash
  · exact nonempty (List.length_eq_zero_iff.mp empty)

/-- With a slash behind it a URL without `.` always gives its `index.html`. -/
theorem getPath_append_slash
    {url : Bytes}
    (noDot : 46 ∉ url) :
    getPath (url ++ str "/") = indexPath url := by
  rw [getPath_of_slash]
  · unfold indexPath
    rw [List.append_assoc]
    rfl
  · rw [List.mem_append, not_or]
    exact ⟨noDot, by decide⟩
  · exact List.getLast?_concat

/-! ## Where it leads -/

theorem lexical_append_cons (path later : Bytes) :
    lexical (path ++ 47 :: later) =
      (lexical path).andThen (lexical later) :=
  Path.lexical_append_cons path later

theorem lexical_root : lexical (str "./src") = ⟨0, documentRoot⟩ := by
  decide

/-- A path behind the document root leads on from there. -/
theorem lexical_src
    {url : Bytes}
    (slash : url.head? = some 47) :
    lexical (str "./src" ++ url) =
      Place.andThen ⟨0, documentRoot⟩ (lexical url) := by
  obtain ⟨rest, rfl⟩ := List.head?_eq_some_iff.mp slash
  rw [lexical_append_cons, lexical_root]
  exact congrArg _ (Path.lexical_cons_separator rest).symm

theorem under_src_iff
    {url : Bytes}
    (slash : url.head? = some 47) :
    (lexical (str "./src" ++ url)).Under documentRoot ↔
      (lexical url).ups = 0 ∨
        (lexical url).ups = 1 ∧ documentRoot <+: (lexical url).names := by
  rw [lexical_src slash, Place.under_andThen_iff]
  change (lexical url).ups ≤ 1 ∧
    documentRoot.drop (1 - (lexical url).ups) <+: (lexical url).names ↔ _
  rcases Nat.lt_trichotomy (lexical url).ups 1 with below | one | above
  · have none : (lexical url).ups = 0 := by omega
    refine iff_of_true ⟨by omega, ?_⟩ (Or.inl none)
    rw [none]
    exact List.nil_prefix
  · rw [one]
    constructor
    · rintro ⟨_, back⟩
      exact Or.inr ⟨rfl, back⟩
    · rintro (none | ⟨_, back⟩)
      · cases none
      · exact ⟨le_refl 1, back⟩
  · refine iff_of_false ?_ ?_
    · rintro ⟨below, _⟩
      omega
    · rintro (none | ⟨one, _⟩) <;> omega

theorem indexPath_under
    {url : Bytes}
    (slash : url.head? = some 47)
    (noDot : 46 ∉ url) :
    (lexical (indexPath url)).Under documentRoot := by
  have below : (lexical url).ups = 0 := Path.lexical_ups_eq_zero noDot
  have split : indexPath url =
      (str "./src" ++ url) ++ 47 :: str "index.html" := by
    unfold indexPath
    rw [List.append_assoc]
    rfl
  have index : lexical (str "index.html") = ⟨0, [str "index.html"]⟩ := by
    decide
  rw [split, lexical_append_cons, lexical_src slash, index,
    Place.andThen_of_below _ below, Place.andThen_of_below _ rfl]
  refine ⟨rfl, (lexical url).names ++ [str "index.html"], ?_⟩
  exact (List.append_assoc _ _ _).symm

/-- A slash between a directory and its `index.html` may stand twice. -/
theorem lexical_getPath_of_slash
    {url : Bytes}
    (noDot : 46 ∉ url)
    (slash : url.getLast? = some 47) :
    lexical (getPath url) = lexical (indexPath url) := by
  obtain ⟨before, rfl⟩ := List.getLast?_eq_some_iff.mp slash
  have single : str "./src" ++ ((before ++ [47]) ++ str "index.html") =
      (str "./src" ++ before) ++ 47 :: str "index.html" := by
    simp only [List.append_assoc, List.cons_append, List.nil_append]
  have double : indexPath (before ++ [47]) =
      (str "./src" ++ before) ++ 47 :: 47 :: str "index.html" := by
    unfold indexPath
    simp only [List.append_assoc]
    rfl
  rw [getPath_of_slash noDot slash, single, double, lexical_append_cons,
    lexical_append_cons]
  exact congrArg _ (Path.lexical_cons_separator _).symm

/-- Without a slash the last name is another one. -/
theorem lexical_getPath_of_name
    {url : Bytes}
    (head : url.head? = some 47)
    (noDot : 46 ∉ url)
    (noSlash : url.getLast? ≠ some 47) :
    lexical (getPath url) ≠ lexical (indexPath url) := by
  have member : 47 ∈ url.reverse :=
    List.mem_reverse.mpr (List.mem_of_mem_head? head)
  obtain ⟨backwards, ahead, split, whole⟩ :=
    List.eq_append_cons_of_mem member
  obtain ⟨before, name, rfl, whole⟩ : ∃ before name : Bytes,
      url = before ++ 47 :: name ∧ 47 ∉ name := by
    refine ⟨ahead.reverse, backwards.reverse, ?_, ?_⟩
    · have mirrored := congrArg List.reverse split
      simpa using mirrored
    · rw [List.mem_reverse]
      exact whole
  have nonempty : name ≠ [] := by
    rintro rfl
    exact noSlash List.getLast?_concat
  rw [List.mem_append, List.mem_cons, not_or, not_or] at noDot
  have dotted : Path.step 46 (name ++ [46]) = .down (name ++ [46]) := by
    unfold Path.step
    cases name with
    | nil => exact absurd rfl nonempty
    | cons byte rest =>
        rw [List.mem_cons, not_or] at noDot
        simp only [List.cons_append, List.cons.injEq, List.append_eq_nil_iff,
          reduceCtorEq, and_false, or_self, if_false, Ne.symm noDot.2.2.1,
          false_and]
  have opened : getPath (before ++ 47 :: name) =
      (str "./src" ++ before) ++ 47 :: ((name ++ [46]) ++
        47 :: str "index.html") := by
    rw [getPath_of_name _ (by simp) noSlash]
    · simp only [List.append_assoc, List.cons_append]
      rfl
    · rw [List.mem_append, List.mem_cons, not_or, not_or]
      exact noDot
  have index : indexPath (before ++ 47 :: name) =
      (str "./src" ++ before) ++ 47 :: (name ++ 47 :: str "index.html") := by
    unfold indexPath
    simp only [List.append_assoc, List.cons_append]
    rfl
  have first : lexical (name ++ [46]) = ⟨0, [name ++ [46]]⟩ := by
    apply Path.lexical_name _ dotted
    rw [List.mem_append, not_or]
    exact ⟨whole, by decide⟩
  have second : lexical name = ⟨0, [name]⟩ :=
    Path.lexical_name whole (Path.step_of_not_mem noDot.2.2 nonempty)
  have last : lexical (str "index.html") = ⟨0, [str "index.html"]⟩ := by
    decide
  rw [opened, index]
  simp only [lexical_append_cons]
  rw [first, second, last]
  simp only [Place.andThen_of_below]
  intro same
  have names := congrArg Place.names same
  simp at names

/-! ## The main result -/

/-- The path opened is as it should be exactly for the confined URLs. -/
theorem resolves_iff
    {url : Bytes}
    (slash : url.head? = some 47) :
    Resolves url ↔ Confined url := by
  unfold Resolves Confined
  by_cases dot : 46 ∈ url
  · rw [getPath_of_dot dot, under_src_iff slash]
    constructor
    · rintro ⟨under, _⟩
      exact ⟨fun noDot => absurd dot noDot, fun _ => under⟩
    · rintro ⟨_, under⟩
      exact ⟨under dot, fun noDot => absurd dot noDot⟩
  · by_cases ends : url.getLast? = some 47
    · have opened := lexical_getPath_of_slash dot ends
      refine iff_of_true ⟨?_, ?_⟩ ⟨fun _ => ends, fun member => absurd member dot⟩
      · rw [opened]
        exact indexPath_under slash dot
      · intro _
        rw [getPath_append_slash dot, opened]
        exact ⟨rfl, rfl⟩
    · refine iff_of_false ?_ ?_
      · rintro ⟨_, index⟩
        exact lexical_getPath_of_name slash dot ends (index dot).1
      · rintro ⟨closed, _⟩
        exact ends (closed dot)

theorem resolves_iff_directory : Resolves (str "/a/") :=
  (resolves_iff (by decide)).mpr
    ⟨fun _ => by decide, fun dot => absurd dot (by decide)⟩

/-- The URL that the loops of `Dealer` take from a GET request. -/
def Extracts (request url : Bytes) : Prop :=
  ∃ rest later, word request = some (str "GET", rest) ∧
    word rest = some (url, later)

/-- For `/abc` it is the `index.html` of a directory `abc.`. -/
theorem misses_directory :
    ¬ ∀ request url : Bytes,
      Extracts request url → url.head? = some 47 → Resolves url := by
  intro resolves
  have extracted : Extracts (str "GET /abc HTTP/1.1\r\n\r\n") (str "/abc") :=
    ⟨str "/abc HTTP/1.1\r\n\r\n", str "HTTP/1.1\r\n\r\n", by decide, by decide⟩
  obtain ⟨_, index⟩ := resolves _ _ extracted (by decide)
  exact absurd (index (by decide)).1 (by decide)

/-- Two components `..` lead out of the document root. -/
example : lexical (getPath (str "/../x")) = ⟨0, [str "x"]⟩ := by decide

end Dealer
end Lab2
end CloudComputing
