import WorkflowCatalog.Proofs.Brackets
import WorkflowCatalog.Regex.Pattern

/-!
# Where groups end

A group is read up to its closing parenthesis or to the end. If the parenthesis is there, then what is before it can
be read by itself, to the same expression.
-/
namespace WorkflowCatalog.Regex

variable {spaced : Bool} {flags : Flags} {names : List String} {cs rest u : List Char}

/-! ## Counts -/

theorem digitRun_eq_run (spaced : Bool) (fuel : Nat) (cs : List Char) :
    digitRun spaced fuel cs = run Text.isDigit spaced fuel cs := by
  induction fuel generalizing cs with
  | zero => rfl
  | succ fuel ih =>
    cases cs with
    | nil => rfl
    | cons c cs => simp only [digitRun, run, ih]

theorem dropWhile_isBlank_append (cs u : List Char) :
    (cs ++ ')' :: u).dropWhile Text.isBlank = cs.dropWhile Text.isBlank ++ ')' :: u := by
  rw [List.dropWhile_append]
  split
  · rename_i blank
    rw [List.isEmpty_iff.1 blank, List.nil_append, List.dropWhile_cons_of_neg (by decide)]
  · rfl

theorem count?_suffix {n : Nat} (read : count? spaced cs = some (n, rest)) : rest <:+ cs := by
  simp only [count?, digitRun_eq_run, Option.ite_none_left_eq_some, Option.some.injEq, Prod.mk.injEq] at read
  obtain ⟨-, -, rfl⟩ := read
  have within := run_suffix Text.isDigit spaced (cs.dropWhile Text.isBlank).length (cs.dropWhile Text.isBlank)
  exact (((skip_suffix _ _).trans (List.dropWhile_suffix _)).trans within).trans (List.dropWhile_suffix _)

theorem count?_cut {n : Nat} (read : count? spaced (cs ++ ')' :: u) = some (n, rest ++ ')' :: u)) :
    count? spaced cs = some (n, rest) := by
  simp only [count?, digitRun_eq_run, Option.ite_none_left_eq_some, Option.some.injEq, Prod.mk.injEq,
    dropWhile_isBlank_append] at read ⊢
  generalize cs.dropWhile Text.isBlank = m at read ⊢
  obtain ⟨right, value, left⟩ := read
  have blanks := left ▸ List.suffix_append rest (')' :: u)
  have digits := run_cut (show Text.isDigit ')' = false by decide)
    ((blanks.trans (skip_suffix _ _)).trans (List.dropWhile_suffix _)) (Nat.le_refl _) (Nat.le_refl m.length)
  rw [digits, dropWhile_isBlank_append] at left blanks
  rw [digits] at right value
  rw [skip_append blanks, List.append_cancel_right_eq] at left
  exact ⟨right, value, left⟩

theorem count?_nil (spaced : Bool) : count? spaced [] = none := rfl

/-- The bounds of a repetition after the least number. -/
def boundsEnd? (spaced : Bool) (least : Nat) (cs : List Char) : Option ((Nat × Option Nat) × List Char) :=
  match cs with
  | '}' :: rest => some ((least, some least), rest)
  | ',' :: rest =>
    match skip spaced rest with
    | '}' :: rest => some ((least, none), rest)
    | rest => (count? spaced rest).bind fun n =>
      match n.2 with
      | '}' :: rest => if least ≤ n.1 then some ((least, some n.1), rest) else none
      | _ => none
  | _ => none

theorem bounds?_eq (spaced : Bool) (cs : List Char) :
    bounds? spaced cs = (count? spaced (skip spaced cs)).bind fun n => boundsEnd? spaced n.1 n.2 := rfl

theorem boundsEnd?_suffix {least : Nat} {b : Nat × Option Nat} (read : boundsEnd? spaced least cs = some (b, rest)) :
    rest <:+ cs := by
  unfold boundsEnd? at read
  split at read
  · cases read
    exact List.suffix_cons _ _
  · rename_i m
    refine List.IsSuffix.trans ?_ ((skip_suffix spaced m).trans (List.suffix_cons _ _))
    split at read
    · rename_i start
      cases read
      rw [start]
      exact List.suffix_cons _ _
    · obtain ⟨⟨most, r⟩, second, read⟩ := Option.bind_eq_some_iff.1 read
      refine List.IsSuffix.trans ?_ (count?_suffix second)
      split at read
      · rename_i closed
        simp only [Option.ite_none_right_eq_some, Option.some.injEq, Prod.mk.injEq] at read closed
        obtain ⟨-, -, rfl⟩ := read
        exact closed ▸ List.suffix_cons _ _
      · cases read
  · cases read

theorem boundsEnd?_cut {least : Nat} {b : Nat × Option Nat}
    (read : boundsEnd? spaced least (cs ++ ')' :: u) = some (b, rest ++ ')' :: u)) :
    boundsEnd? spaced least cs = some (b, rest) := by
  unfold boundsEnd? at read
  split at read
  · rename_i closing
    obtain ⟨m, rfl, rfl⟩ := eq_cons_of_append closing (by decide)
    exact cut_of_eq read
  · rename_i comma
    obtain ⟨m, rfl, rfl⟩ := eq_cons_of_append comma (by decide)
    simp only [boundsEnd?]
    split at read
    · rename_i closing
      simp only [Option.some.injEq, Prod.mk.injEq] at read
      obtain ⟨rfl, rfl⟩ := read
      have kept := skip_append (closing ▸ (List.suffix_append rest (')' :: u)).trans (List.suffix_cons _ _))
      obtain ⟨n, first, same⟩ := eq_cons_of_append (kept ▸ closing) (by decide)
      rw [List.append_cancel_right_eq] at same
      simp only [first, same]
    · rename_i other
      obtain ⟨⟨most, r⟩, second, read⟩ := Option.bind_eq_some_iff.1 read
      split at read
      · rename_i closed
        simp only at closed
        subst closed
        simp only [Option.ite_none_right_eq_some, Option.some.injEq, Prod.mk.injEq] at read
        obtain ⟨ordered, rfl, rfl⟩ := read
        have kept := skip_append (((List.suffix_append rest _).trans (List.suffix_cons _ _)).trans
          (count?_suffix second))
        rw [kept] at second other
        have sameCount : count? spaced (skip spaced m) = some (most, '}' :: rest) := count?_cut second
        split
        · rename_i first
          exact (other _ (by rw [first, List.cons_append])).elim
        · simp only [sameCount, Option.bind_some, if_pos ordered]
      · cases read
  · cases read

theorem bounds?_suffix {b : Nat × Option Nat} (read : bounds? spaced cs = some (b, rest)) :
    rest <:+ skip spaced cs := by
  obtain ⟨⟨least, r⟩, first, read⟩ := Option.bind_eq_some_iff.1 (bounds?_eq spaced cs ▸ read)
  exact (boundsEnd?_suffix read).trans (count?_suffix first)

theorem bounds?_of_blank (blank : skip spaced cs = []) : bounds? spaced cs = none := by
  rw [bounds?_eq, blank, count?_nil, Option.bind_none]

theorem bounds?_cut {b : Nat × Option Nat} (read : bounds? spaced (cs ++ ')' :: u) = some (b, rest ++ ')' :: u)) :
    bounds? spaced cs = some (b, rest) := by
  have kept := skip_append_of_left (bounds?_suffix read)
  rw [bounds?_eq, kept] at read
  obtain ⟨⟨least, r⟩, first, read⟩ := Option.bind_eq_some_iff.1 read
  obtain ⟨r, rfl⟩ := (List.suffix_append rest _).trans (boundsEnd?_suffix read)
  rw [bounds?_eq, count?_cut first, Option.bind_some, boundsEnd?_cut read]

/-! ## Groups -/

/-- Flags are read up to the mark behind them, whatever follows. -/
theorem flagItems?_eq_some {seen : List Char} {inner : Flags} {count : Nat} {mark : Char}
    (read : flagItems? flags seen cs = some (inner, count, mark, rest)) :
    ∃ p, cs = p ++ rest ∧ ∀ more, flagItems? flags seen (p ++ more) = some (inner, count, mark, more) := by
  fun_induction flagItems? flags seen cs with
  | case1 => cases read
  | case2 => cases read
  | case3 flags seen m free =>
    cases read
    exact ⟨[':'], rfl, fun more => by simp only [List.singleton_append, flagItems?, if_neg free]⟩
  | case4 => cases read
  | case5 flags seen m free =>
    cases read
    exact ⟨[')'], rfl, fun more => by simp only [List.singleton_append, flagItems?, if_neg free]⟩
  | case6 => cases read
  | case7 flags seen m _ _ free ih =>
    obtain ⟨p, rfl, always⟩ := ih read
    exact ⟨'-' :: p, rfl, fun more => by simp only [List.cons_append, flagItems?, if_neg free, if_true, always]⟩
  | case8 flags seen c m noColon noClosing free letter ih =>
    obtain ⟨set, known, read⟩ := Option.bind_eq_some_iff.1 read
    obtain ⟨p, rfl, always⟩ := ih set read
    refine ⟨c :: p, rfl, fun more => ?_⟩
    rw [List.cons_append, flagItems?, if_neg free, if_neg letter, known]
    · exact always more
    · exact noColon
    · exact noClosing

/-- The name of a group is read up to its closing mark, whatever follows. -/
theorem groupName?_eq_some {name : String} (read : groupName? names cs = some (name, rest)) :
    ∃ p, cs = p ++ rest ∧ ∀ more, groupName? names (p ++ more) = some (name, more) := by
  unfold groupName? at read
  split at read
  · rename_i first more left found
    obtain ⟨absent, rfl⟩ := Text.cutAt_eq_some_iff.1 found
    simp only [Option.ite_none_right_eq_some, Option.some.injEq, Prod.mk.injEq] at read
    obtain ⟨right, rfl, rfl⟩ := read
    refine ⟨first :: more ++ ['>'], by simp, fun m => ?_⟩
    have again : Text.cutAt '>' (first :: more ++ '>' :: m) = (first :: more, some m) :=
      Text.cutAt_eq_some_iff.2 ⟨absent, rfl⟩
    rw [List.append_assoc, List.singleton_append, groupName?, again]
    exact if_pos right
  · cases read

/-- What a reader takes whatever follows is there before the parenthesis too. -/
theorem eq_append_of_append {p : List Char} (same : cs ++ ')' :: u = p ++ (rest ++ ')' :: u)) : cs = p ++ rest := by
  rwa [← List.append_assoc, List.append_cancel_right_eq] at same

theorem named_eq_some {o : Opening} (read : opening?.named flags names cs = some (o, rest)) :
    ∃ p, cs = p ++ rest ∧ ∀ more, opening?.named flags names (p ++ more) = some (o, more) := by
  simp only [opening?.named, Option.map_eq_some_iff, Prod.exists, Prod.mk.injEq] at read
  obtain ⟨name, r, known, rfl, rfl⟩ := read
  obtain ⟨p, same, always⟩ := groupName?_eq_some known
  exact ⟨p, same, fun more => by rw [opening?.named, always, Option.map_some]⟩

/-- Flags behind a question mark, for a group or from there on. -/
def flagsOpening? (flags : Flags) (names : List String) (cs : List Char) : Option (Opening × List Char) := do
  let (inner, count, mark, rest) ← flagItems? flags [] cs
  if mark = ':' then return (.group inner names, rest)
  else if count = 0 then none
  else return (.flags inner, rest)

theorem flagsOpening?_eq_some {o : Opening} (read : flagsOpening? flags names cs = some (o, rest)) :
    ∃ p, cs = p ++ rest ∧ ∀ more, flagsOpening? flags names (p ++ more) = some (o, more) := by
  obtain ⟨⟨inner, count, mark, r⟩, items, read⟩ := Option.bind_eq_some_iff.1 read
  have here : r = rest ∧ ∀ more : List Char, (if mark = ':' then some (.group inner names, more)
      else if count = 0 then none else some (.flags inner, more)) = some (o, more) := by
    simp only [Option.pure_def] at read
    split at read
    · rename_i colon
      cases read
      exact ⟨rfl, fun more => if_pos colon⟩
    · rename_i other
      split at read
      · cases read
      · rename_i some
        cases read
        exact ⟨rfl, fun more => by rw [if_neg other, if_neg some]⟩
  obtain ⟨rfl, opens⟩ := here
  obtain ⟨p, same, always⟩ := flagItems?_eq_some items
  refine ⟨p, same, fun more => ?_⟩
  rw [flagsOpening?, always]
  exact opens more

theorem opening?_suffix {o : Opening} (read : opening? flags names cs = some (o, rest)) :
    rest <:+ skip flags.spaced cs := by
  unfold opening? at read
  split at read
  case h_1 | h_6 =>
    rename_i start
    obtain ⟨p, rfl, -⟩ := named_eq_some read
    rw [start]
    simp only [← List.cons_append]
    exact List.suffix_append _ _
  case h_7 =>
    rename_i start
    obtain ⟨p, rfl, -⟩ := flagsOpening?_eq_some read
    rw [start, ← List.cons_append]
    exact List.suffix_append _ _
  case h_8 =>
    cases read
    exact List.suffix_refl _
  all_goals cases read

theorem opening?_cut {o : Opening} (read : opening? flags names (cs ++ ')' :: u) = some (o, rest ++ ')' :: u)) :
    opening? flags names cs = some (o, rest) := by
  have kept := skip_append_of_left (opening?_suffix read)
  simp only [opening?, kept] at read ⊢
  generalize skip flags.spaced cs = m at read ⊢
  split at read
  case h_1 begins =>
    obtain ⟨n, rfl, letter⟩ := eq_cons_of_append begins (by decide)
    obtain ⟨k, rfl, mark⟩ := eq_cons_of_append letter.symm (by decide)
    obtain ⟨m, rfl, rfl⟩ := eq_cons_of_append mark.symm (by decide)
    obtain ⟨p, same, always⟩ := named_eq_some read
    rw [eq_append_of_append same]
    exact always rest
  case h_6 noEquals noMark begins =>
    obtain ⟨n, rfl, mark⟩ := eq_cons_of_append begins (by decide)
    obtain ⟨m, rfl, rfl⟩ := eq_cons_of_append mark.symm (by decide)
    obtain ⟨p, same, always⟩ := named_eq_some read
    obtain rfl := eq_append_of_append same
    have ahead {c : Char} {tail : List Char} (first : '?' :: '<' :: (p ++ rest) = '?' :: '<' :: c :: tail) :
        p ++ rest ++ ')' :: u = c :: (tail ++ ')' :: u) := by
      rw [(List.cons.inj (List.cons.inj first).2).2, List.cons_append]
    split
    case h_4 first => exact (noEquals _ (ahead first)).elim
    case h_5 first => exact (noMark _ (ahead first)).elim
    case h_6 first =>
      obtain rfl := (List.cons.inj (List.cons.inj first).2).2
      exact always rest
    case h_7 other first => exact (other _ (List.cons.inj first).2.symm).elim
    case h_8 other => exact (other _ rfl).elim
    all_goals
      rename_i first
      cases first
  case h_7 noP noEquals noMark noAhead noBehind noName begins =>
    obtain ⟨m, rfl, rfl⟩ := eq_cons_of_append begins (by decide)
    obtain ⟨p, same, always⟩ := flagsOpening?_eq_some read
    obtain rfl := eq_append_of_append same
    have ahead {n : List Char} (first : '?' :: (p ++ rest) = '?' :: n) : p ++ rest ++ ')' :: u = n ++ ')' :: u := by
      rw [(List.cons.inj first).2]
    split
    case h_1 first => exact (noP _ (ahead first)).elim
    case h_2 first => exact (noEquals _ (ahead first)).elim
    case h_3 first => exact (noMark _ (ahead first)).elim
    case h_4 first => exact (noAhead _ (ahead first)).elim
    case h_5 first => exact (noBehind _ (ahead first)).elim
    case h_6 first => exact (noName _ (ahead first)).elim
    case h_7 first =>
      obtain rfl := (List.cons.inj first).2
      exact always rest
    case h_8 other => exact (other _ rfl).elim
  case h_8 noQuestion =>
    split
    case h_8 => exact cut_of_eq read
    all_goals exact (noQuestion _ rfl).elim
  all_goals cases read

/-! ## Characters and sets -/

theorem atom?_suffix {r : Regex} (read : atom? flags cs = some (r, rest)) : rest <:+ cs.tail := by
  unfold atom? at read
  split at read
  case h_1 => cases read
  case h_2 m =>
    simp only [Option.bind_eq_bind, Option.bind_eq_some_iff, Prod.exists, Option.pure_def, Option.some.injEq,
      Prod.mk.injEq] at read
    obtain ⟨e, rest, escape, _, -, -, rfl⟩ := read
    exact (escape?_suffix escape).trans (List.tail_suffix _)
  case h_3 m =>
    simp only [Option.map_eq_some_iff, Prod.mk.injEq] at read
    obtain ⟨s, -, -, rfl⟩ := read
    exact List.suffix_refl _
  case h_6 m =>
    simp only [Option.map_eq_some_iff, Prod.exists, Prod.mk.injEq] at read
    obtain ⟨s, rest, set, -, rfl⟩ := read
    exact bracket?_suffix set
  all_goals
    cases read
    exact List.suffix_refl _

/-- A character or set may look ahead only if it is a boundary. -/
theorem atom?_cut {r : Regex} (read : atom? flags (cs ++ ')' :: u) = some (r, rest ++ ')' :: u)) :
    atom? flags cs = some (r, rest) ∨ ∃ m, rest = '{' :: m ∧ skip flags.spaced m = [] := by
  cases cs with
  | nil => exact absurd (atom?_suffix read) (not_suffix_after _ _)
  | cons c cs =>
    simp only [List.cons_append, atom?] at read ⊢
    split at read
    case h_1 same => cases same
    case h_2 m same =>
      obtain ⟨rfl, rfl⟩ := List.cons.inj same
      simp only [Option.bind_eq_bind, Option.bind_eq_some_iff, Prod.exists, Option.pure_def, Option.some.injEq,
        Prod.mk.injEq] at read ⊢
      obtain ⟨e, _, escape, r, known, rfl, rfl⟩ := read
      rcases escape?_cut escape with same | ⟨p, m, -, left, blank⟩
      · exact .inl ⟨e, rest, same, r, known, rfl, rfl⟩
      · exact .inr ⟨m, left, blank⟩
    case h_3 m same =>
      obtain ⟨rfl, rfl⟩ := List.cons.inj same
      simp only [Option.map_eq_some_iff, Prod.mk.injEq, List.append_cancel_right_eq] at read ⊢
      exact .inl read
    case h_4 m same =>
      obtain ⟨rfl, rfl⟩ := List.cons.inj same
      exact .inl (cut_of_eq read)
    case h_5 m same =>
      obtain ⟨rfl, rfl⟩ := List.cons.inj same
      exact .inl (cut_of_eq read)
    case h_6 m same =>
      obtain ⟨rfl, rfl⟩ := List.cons.inj same
      simp only [Option.map_eq_some_iff, Prod.exists, Prod.mk.injEq] at read ⊢
      obtain ⟨s, _, set, known, rfl⟩ := read
      exact .inl ⟨s, rest, bracket?_cut set, known, rfl⟩
    case h_7 d m noEscape noDot noStart noEnd noSet same =>
      obtain ⟨rfl, rfl⟩ := List.cons.inj same
      left
      split
      case h_1 first => cases first
      case h_2 first => exact (noEscape (List.cons.inj first).1).elim
      case h_3 first => exact (noDot (List.cons.inj first).1).elim
      case h_4 first => exact (noStart (List.cons.inj first).1).elim
      case h_5 first => exact (noEnd (List.cons.inj first).1).elim
      case h_6 first => exact (noSet (List.cons.inj first).1).elim
      case h_7 first =>
        obtain ⟨rfl, rfl⟩ := List.cons.inj first
        exact cut_of_eq read

/-! ## Parts -/

theorem dropLazy_suffix (cs : List Char) : dropLazy cs <:+ cs := by
  unfold dropLazy
  split
  · exact List.suffix_cons _ _
  · exact List.suffix_refl _

theorem dropLazy_append (cs u : List Char) : dropLazy (cs ++ ')' :: u) = dropLazy cs ++ ')' :: u := by
  unfold dropLazy
  split
  · rename_i mark
    obtain ⟨m, rfl, rfl⟩ := eq_cons_of_append mark (by decide)
    rfl
  · rename_i other
    split
    · exact (other _ rfl).elim
    · rfl

section Parts

variable {fuel fuel' : Nat} {names' : List String} {g : Group} {o : Opening} {r : Regex}

/-- What follows an opening: parts with its flags, or a group up to its parenthesis and the parts behind it. -/
def opened? (fuel : Nat) (flags : Flags) (names : List String) (g : Group) (o : Opening) (cs : List Char) :
    Option (Regex × List String × List Char) :=
  match o with
  | .flags inner => parts? fuel inner names g.flagged cs
  | .group inner names => (parts? fuel inner names .empty cs).bind fun read =>
    (Text.dropMark? [')'] read.2.2).bind fun rest => parts? fuel flags read.2.1 (g.push read.1) rest

theorem parts?_opening {m : List Char} (start : skip flags.spaced cs = '(' :: m) :
    parts? (fuel + 1) flags names g cs =
      (opening? flags names m).bind fun o => opened? fuel flags names g o.1 o.2 := by
  simp only [parts?, start, Option.bind_eq_bind]
  congr 1
  funext ⟨o, m⟩
  cases o with
  | flags inner => rfl
  | group inner names =>
    simp only [opened?]
    congr 1
    funext read
    split
    · rename_i closed
      simp only [closed, Text.dropMark?, if_true, Option.bind_some]
    · rename_i other
      cases left : read.2.2 with
      | nil => rfl
      | cons c rest =>
        have unlike : ')' ≠ c := fun same => other rest (by rw [left, same])
        simp only [Text.dropMark?, if_neg unlike, Option.bind_none]

theorem opened?_suffix (read : opened? fuel flags names g o cs = some (r, names', rest))
    (later : ∀ {flags names g cs r names' rest}, parts? fuel flags names g cs = some (r, names', rest) → rest <:+ cs) :
    rest <:+ cs := by
  cases o with
  | flags inner => exact later read
  | group inner names =>
    simp only [opened?, Option.bind_eq_some_iff, Prod.exists] at read
    obtain ⟨inside, names, k, group, m, closed, behind⟩ := read
    have within := later group
    rw [Text.dropMark?_single closed] at within
    exact (later behind).trans ((List.suffix_cons _ _).trans within)

theorem parts?_suffix (read : parts? fuel flags names g cs = some (r, names', rest)) :
    rest <:+ skip flags.spaced cs := by
  induction fuel generalizing flags names g cs r names' rest with
  | zero => simp [parts?] at read
  | succ fuel ih =>
    have later {flags : Flags} {names names' : List String} {g : Group} {m : List Char} {r : Regex} {rest : List Char}
        (more : parts? fuel flags names g m = some (r, names', rest)) : rest <:+ m :=
      (ih more).trans (skip_suffix _ _)
    have whole := read
    simp only [parts?] at read
    split at read
    case h_1 start =>
      cases read
      exact List.nil_suffix
    case h_2 m start =>
      cases read
      exact start ▸ List.suffix_refl _
    case h_3 m start =>
      rw [start]
      exact (later read).trans (List.suffix_cons _ _)
    case h_4 m start | h_5 m start | h_6 m start =>
      obtain ⟨g, -, more⟩ := Option.bind_eq_some_iff.1 read
      rw [start]
      exact ((later more).trans (dropLazy_suffix m)).trans (List.suffix_cons _ _)
    case h_7 m start =>
      simp only [Option.bind_eq_bind, Option.bind_eq_some_iff, Prod.exists] at read
      obtain ⟨least, most, r, bounds, g, -, more⟩ := read
      rw [start]
      have after := ((dropLazy_suffix _).trans (skip_suffix flags.spaced r)).trans (bounds?_suffix bounds)
      exact (((later more).trans after).trans (skip_suffix _ _)).trans (List.suffix_cons _ _)
    case h_8 m start =>
      obtain ⟨⟨o, k⟩, opening, behind⟩ := Option.bind_eq_some_iff.1 (parts?_opening start ▸ whole)
      have after := (opening?_suffix opening).trans (skip_suffix _ _)
      rw [start]
      exact ((opened?_suffix behind later).trans after).trans (List.suffix_cons _ _)
    case h_9 =>
      simp only [Option.bind_eq_bind, Option.bind_eq_some_iff, Prod.exists] at read
      obtain ⟨r, k, atom, more⟩ := read
      exact ((later more).trans (atom?_suffix atom)).trans (List.tail_suffix _)

/-- A boundary in front of an open brace is not the end: bounds would have to follow. -/
theorem parts?_of_brace (blank : skip flags.spaced cs = []) : parts? fuel flags names g ('{' :: cs) = none := by
  cases fuel with
  | zero => rfl
  | succ fuel =>
    simp only [parts?, skip_cons flags.spaced (show Text.isBlank '{' = false by decide) (by decide),
      bounds?_of_blank blank]
    rfl

theorem parts?_kept (read : parts? fuel flags names g cs = some (r, names', rest ++ ')' :: u)) : ')' :: u <:+ cs :=
  (List.suffix_append rest _).trans ((parts?_suffix read).trans (skip_suffix _ _))

theorem opened?_kept (read : opened? fuel flags names g o cs = some (r, names', rest ++ ')' :: u)) :
    ')' :: u <:+ cs :=
  (List.suffix_append rest _).trans (opened?_suffix read fun more => (parts?_suffix more).trans (skip_suffix _ _))

theorem opened?_cut (read : opened? fuel flags names g o (cs ++ ')' :: u) = some (r, names', rest ++ ')' :: u))
    (cut : ∀ {flags names g cs r names' rest}, parts? fuel flags names g (cs ++ ')' :: u) =
      some (r, names', rest ++ ')' :: u) → cs.length < fuel' → parts? fuel' flags names g cs = some (r, names', rest))
    (enough : cs.length < fuel') : opened? fuel' flags names g o cs = some (r, names', rest) := by
  cases o with
  | flags inner => exact cut read enough
  | group inner names =>
    simp only [opened?, Option.bind_eq_some_iff, Prod.exists] at read ⊢
    obtain ⟨inside, names, _, group, m, closed, behind⟩ := read
    obtain ⟨m, rfl⟩ := parts?_kept behind
    rw [Text.dropMark?_single closed] at group
    have alone : parts? fuel' inner _ .empty cs = some (inside, names, ')' :: m) := cut group enough
    have backward := ((parts?_suffix alone).trans (skip_suffix _ _)).length_le
    rw [List.length_cons] at backward
    exact ⟨inside, names, _, alone, m, by rw [Text.dropMark?, if_pos rfl, Text.dropMark?], cut behind (by omega)⟩

/-- What stands before a closing parenthesis that is left reads by itself as it reads there. -/
theorem parts?_cut (read : parts? fuel flags names g (cs ++ ')' :: u) = some (r, names', rest ++ ')' :: u))
    (enough : cs.length < fuel') : parts? fuel' flags names g cs = some (r, names', rest) := by
  induction fuel generalizing flags names g cs r names' rest fuel' with
  | zero => simp [parts?] at read
  | succ fuel ih =>
    obtain ⟨fuel', rfl⟩ := Nat.exists_eq_add_one_of_ne_zero (Nat.ne_zero_of_lt enough)
    have shorter := (skip_suffix flags.spaced cs).length_le
    have kept := skip_append_of_left (parts?_suffix read)
    have whole := read
    simp only [parts?, kept] at read ⊢
    cases start : skip flags.spaced cs with
    | nil =>
      rw [start] at read
      simp only [List.nil_append, Option.some.injEq, Prod.mk.injEq, List.self_eq_append_left] at read ⊢
      exact ⟨read.1, read.2.1, read.2.2.symm⟩
    | cons c m =>
      simp only [start, List.cons_append, List.length_cons] at read shorter ⊢
      split at read
      case h_1 same => cases same
      case h_2 same =>
        obtain ⟨rfl, rfl⟩ := List.cons.inj same
        simp only [← List.cons_append, Option.some.injEq, Prod.mk.injEq, List.append_cancel_right_eq] at read ⊢
        exact read
      case h_3 same =>
        obtain ⟨rfl, rfl⟩ := List.cons.inj same
        exact ih read (by omega)
      case h_4 same | h_5 same | h_6 same =>
        obtain ⟨rfl, rfl⟩ := List.cons.inj same
        obtain ⟨g, repeated, more⟩ := Option.bind_eq_some_iff.1 read
        rw [dropLazy_append] at more
        simp only [repeated, Option.bind_eq_bind, Option.bind_some]
        have := (dropLazy_suffix m).length_le
        exact ih more (by omega)
      case h_7 same =>
        obtain ⟨rfl, rfl⟩ := List.cons.inj same
        simp only [Option.bind_eq_bind, Option.bind_eq_some_iff, Prod.exists] at read ⊢
        obtain ⟨least, most, k, bounds, g, repeated, more⟩ := read
        have left := (parts?_kept more).trans (dropLazy_suffix _)
        obtain ⟨k, rfl⟩ := left.trans (skip_suffix _ _)
        rw [skip_append left, dropLazy_append] at more
        have same := bounds?_cut bounds
        have forward := ((dropLazy_suffix _).trans ((skip_suffix flags.spaced k).trans
          ((bounds?_suffix same).trans (skip_suffix _ _)))).length_le
        exact ⟨least, most, k, same, g, repeated, ih more (by omega)⟩
      case h_8 same =>
        obtain ⟨rfl, rfl⟩ := List.cons.inj same
        have opens : skip flags.spaced (cs ++ ')' :: u) = '(' :: (m ++ ')' :: u) := by
          rw [kept, start, List.cons_append]
        obtain ⟨⟨o, k⟩, opening, behind⟩ := Option.bind_eq_some_iff.1 (parts?_opening opens ▸ whole)
        obtain ⟨k, rfl⟩ := opened?_kept behind
        have same := opening?_cut opening
        have forward := ((opening?_suffix same).trans (skip_suffix _ _)).length_le
        have alone : parts? (fuel' + 1) flags names g cs = some (r, names', rest) := by
          rw [parts?_opening start, same, Option.bind_some]
          exact opened?_cut behind ih (show k.length < fuel' by omega)
        simpa only [parts?, start] using alone
      case h_9 _ noClosing noBar noMark noStar noPlus noBrace noOpening =>
        simp only [Option.bind_eq_bind, Option.bind_eq_some_iff, Prod.exists] at read
        obtain ⟨a, k, atom, more⟩ := read
        obtain ⟨k, rfl⟩ := parts?_kept more
        rw [← List.cons_append] at atom
        rcases atom?_cut atom with alone | ⟨d, rfl, blank⟩
        · have forward := (atom?_suffix alone).length_le
          rw [List.tail_cons] at forward
          have ahead {d : Char} {n : List Char} (first : c :: m = d :: n) :
              c :: (m ++ ')' :: u) = d :: (n ++ ')' :: u) := by
            rw [← List.cons_append, first, List.cons_append]
          split
          case h_1 first => cases first
          case h_2 first => exact (noClosing _ (ahead first)).elim
          case h_3 first => exact (noBar _ (ahead first)).elim
          case h_4 first => exact (noMark _ (ahead first)).elim
          case h_5 first => exact (noStar _ (ahead first)).elim
          case h_6 first => exact (noPlus _ (ahead first)).elim
          case h_7 first => exact (noBrace _ (ahead first)).elim
          case h_8 first => exact (noOpening _ (ahead first)).elim
          case h_9 =>
            simp only [alone, Option.bind_eq_bind, Option.bind_some]
            exact ih more (by omega)
        · have goes := ih more (Nat.lt_succ_self _)
          rw [parts?_of_brace blank] at goes
          cases goes

end Parts

end WorkflowCatalog.Regex
