import BslLint.Call.Replace
import BslLint.Outline.Search
import BslLint.Proofs.Edit.Splice
import BslLint.Proofs.Located
import BslLint.Proofs.Text.Word

/-!
The replacement of a modal call changes nothing but the text from the name through the opening
parenthesis.

The edits of the three styles differ in how far they reach and in whether they write a dot again.
They have one form in common (`RewritesHead`): of the text they cover, a dot in front and whatever
follows the parenthesis stand in the replacement as they stood in the call.
-/

namespace BslLint

namespace Text

lemma splitFirst?_eq_some {c : Char} {t a b : Text} (h : splitFirst? c t = some (a, b)) :
    t = a ++ c :: b ∧ c ∉ a := by
  induction t generalizing a with
  | nil => simp [splitFirst?] at h
  | cons x t ih =>
    by_cases hx : x = c
    · subst hx
      simp only [splitFirst?, bne_self_eq_false, Bool.false_eq_true, not_false_eq_true,
        List.dropWhile_cons_of_neg, List.takeWhile_cons_of_neg, Option.some.injEq,
        Prod.mk.injEq] at h
      obtain ⟨rfl, rfl⟩ := h
      simp
    · have hstep : splitFirst? c (x :: t) = (splitFirst? c t).map fun p => (x :: p.1, p.2) := by
        simp only [splitFirst?, List.dropWhile_cons, List.takeWhile_cons, bne_iff_ne, ne_eq, hx,
          not_false_eq_true, if_true]
        split <;> rfl
      rw [hstep] at h
      obtain ⟨⟨a', b'⟩, hsplit, hab⟩ := Option.map_eq_some_iff.1 h
      simp only [Prod.mk.injEq] at hab
      obtain ⟨rfl, rfl⟩ := hab
      obtain ⟨rfl, hnot⟩ := ih hsplit
      exact ⟨rfl, by simp [hnot, Ne.symm hx]⟩

lemma splitLast?_eq_some {c : Char} {t a b : Text} (h : splitLast? c t = some (a, b)) :
    t = a ++ c :: b := by
  obtain ⟨⟨after, before⟩, hsplit, hab⟩ := Option.map_eq_some_iff.1 h
  simp only [Prod.mk.injEq] at hab
  obtain ⟨rfl, rfl⟩ := hab
  have := congrArg List.reverse (splitFirst?_eq_some hsplit).1
  simpa using this

lemma exists_splitFirst? {c : Char} {t : Text} (h : c ∈ t) :
    ∃ a b, splitFirst? c t = some (a, b) := by
  obtain ⟨a, b, rfl, hnot⟩ := List.eq_append_cons_of_mem h
  refine ⟨a, b, ?_⟩
  have hpass : ∀ x ∈ a, (x != c) = true := fun x hx =>
    bne_iff_ne.2 fun heq => hnot (heq ▸ hx)
  simp [splitFirst?, List.dropWhile_append_of_pos hpass, List.takeWhile_append_of_pos hpass]

lemma splitLast?_concat (c : Char) (t : Text) : splitLast? c (t ++ [c]) = some (t, []) := by
  simp [splitLast?, splitFirst?]

end Text

lemma Outline.findCharFrom_append {c : Char} {gap : Text} (h : c ∉ gap) (pos : Nat) (rest : Text) :
    findCharFrom c pos (gap ++ c :: rest) = some (pos + Text.byteLength gap) := by
  induction gap generalizing pos with
  | nil => simp [findCharFrom]
  | cons x gap ih =>
    simp only [List.mem_cons, not_or] at h
    rw [List.cons_append, findCharFrom, if_neg (Ne.symm h.1), ih h.2, Text.byteLength_cons]
    congr 1
    omega

/-- What a style writes between the opening parenthesis and the arguments: an empty argument for
the callback, unless the arguments are passed on as they are. -/
def ArgumentStyle.callback : ArgumentStyle → Text
  | .passthrough => []
  | .commaFirst | .selector => [',']

namespace CallSite

lemma nameStart_safe (site : CallSite) : site.nameStart.Safe fun n => site.nameStart = .ok n := by
  unfold nameStart
  split
  · rfl
  · trivial

lemma exists_of_nameStart {site : CallSite} {n : Nat} (h : site.nameStart = .ok n) :
    ∃ before name after, site.text.raw = before ++ name ++ after ∧ Text.byteLength before = n ∧
      Text.byteLength name = site.nameLength := by
  unfold nameStart at h
  split at h
  · rename_i start hfind
    cases h
    obtain ⟨before, name, after, hraw, hb, hname, -⟩ := Text.exists_of_findWord? hfind
    exact ⟨before, name, after, hraw, hb, hname⟩
  · cases h

lemma pieces_safe (before name after : Text) :
    (pieces (before ++ name ++ after) (Text.byteLength before) (Text.byteLength name)).Safe
      fun p => (p.dot = [] ∨ p.dot = ['.']) ∧ before = p.lead ++ p.dot ∧
        ∃ gap rest, '(' ∉ gap ∧ p.head = name ++ gap ∧
          after = gap ++ '(' :: (p.arguments ++ ')' :: rest) := by
  unfold pieces
  rw [List.append_assoc, Text.cut_append, Outcome.ok_bind]
  simp only [Text.cut_append, Outcome.ok_bind]
  split
  · rename_i gap fromArguments hfirst
    obtain ⟨hafter, hgap⟩ := Text.splitFirst?_eq_some hfirst
    split
    · rename_i arguments rest hlast
      have hargs := Text.splitLast?_eq_some hlast
      split <;> rename_i hdot
      · obtain ⟨lead, rfl⟩ := List.getLast?_eq_some_iff.1 hdot
        exact ⟨Or.inr rfl, by simp, gap, rest, hgap, rfl, by rw [hafter, hargs]⟩
      · exact ⟨Or.inl rfl, by simp, gap, rest, hgap, rfl, by rw [hafter, hargs]⟩
    · trivial
  · trivial

lemma exists_pieces (before name : Text) {after : Text} (hopening : '(' ∈ after)
    (hclosing : after.getLast? = some ')') :
    ∃ p, pieces (before ++ name ++ after) (Text.byteLength before) (Text.byteLength name) =
      .ok p := by
  obtain ⟨gap, fromArguments, hfirst⟩ := Text.exists_splitFirst? hopening
  obtain ⟨rfl, -⟩ := Text.splitFirst?_eq_some hfirst
  obtain ⟨args, rfl⟩ : ∃ args, fromArguments = args ++ [')'] := by
    rcases List.eq_nil_or_concat fromArguments with rfl | ⟨args, c, rfl⟩
    · simp at hclosing
    · have hlast : ('(' :: args.concat c).getLast? = some c := by
        rw [List.concat_eq_append, ← List.cons_append, List.getLast?_append]
        rfl
      rw [List.getLast?_append, hlast] at hclosing
      exact ⟨args, by rw [Option.some.inj hclosing, List.concat_eq_append]⟩
  unfold pieces
  rw [List.append_assoc, Text.cut_append, Outcome.ok_bind]
  simp only [Text.cut_append, Outcome.ok_bind, hfirst, Text.splitLast?_concat]
  exact ⟨_, rfl⟩

/-- The form of every edit of a call: it covers a dot in front of the name, the text from the name
through the first parenthesis behind it, and a part of what follows. It writes the dot, the new
name, the parenthesis, what the style puts before the arguments, and the same part again. -/
def RewritesHead (site : CallSite) (r : Replacement) (variant : ScriptVariant) (edit : Edit) :
    Prop :=
  ∃ lead dot name gap kept rest,
    site.text.raw = lead ++ (dot ++ name ++ gap ++ '(' :: kept) ++ rest ∧
      (dot = [] ∨ dot = ['.']) ∧ site.nameStart = .ok (Text.byteLength (lead ++ dot)) ∧
      Text.byteLength name = site.nameLength ∧ '(' ∉ gap ∧
      edit = ⟨site.text.start + Text.byteLength lead,
        Text.byteLength (dot ++ name ++ gap ++ '(' :: kept),
        dot ++ r.name.textIn variant ++ '(' :: (r.style.callback ++ kept)⟩

/-- **The edit of a call** is worked out without breaking off and has the common form. -/
lemma replacementEdit_safe {source : Text} {site : CallSite} (hsite : site.text.Located source)
    {call : CallId} {r : Replacement} (hr : call.replacement? = some r)
    (variant : ScriptVariant) :
    (site.replacementEdit call variant).Safe (site.RewritesHead r variant) := by
  unfold replacementEdit
  rw [hr]
  refine site.nameStart_safe.bind fun n hstart => ?_
  obtain ⟨before, name, after, hraw, rfl, hname⟩ := exists_of_nameStart hstart
  rw [hraw, ← hname]
  refine (pieces_safe before name after).bind ?_
  rintro ⟨lead, dot, head, args⟩ ⟨hdot, hbefore, gap, rest, hgap, hhead, hafter⟩
  dsimp only at hdot hbefore hhead hafter
  subst hbefore hhead hafter
  have hopen : '('.utf8Size = 1 := rfl
  have hclose : ')'.utf8Size = 1 := rfl
  -- No offset in the text of the call leaves the range of offsets.
  have hsum : ∀ k ≤ Text.byteLength site.text.raw,
      (addOffsets site.text.start k : Analysis Nat) = .ok (site.text.start + k) := by
    intro k hk
    obtain ⟨-, -, -, -, hstop⟩ := hsite.exists_around
    have hlt := hsite.lt
    exact addOffsets_of_lt (by omega)
  simp only [hraw, Text.byteLength_append, Text.byteLength_cons, hopen, hclose] at hsum
  -- The edits through the end of the call keep the arguments; the other ones do not reach them.
  cases hstyle : r.style
  case selector =>
    simp only [Replacement.reach, hstyle, Text.byteLength_append]
    rw [hsum _ (by omega), Outcome.ok_bind, hsum _ (by omega), Outcome.ok_bind]
    refine ⟨lead, dot, name, gap, [], args ++ ')' :: rest, by simp [hraw], hdot, hstart, hname,
      hgap, ?_⟩
    simp only [Edit.replace, ArgumentStyle.callback, hstyle, Edit.mk.injEq,
      Text.byteLength_append, Text.byteLength_cons, Text.byteLength_nil, hopen]
    exact ⟨trivial, by omega, by simp⟩
  all_goals
    simp only [Replacement.reach, hstyle, Text.byteLength_append]
    rw [hsum _ (by omega), Outcome.ok_bind, hsum _ (by omega), Outcome.ok_bind]
    refine ⟨lead, dot, name, gap, args ++ [')'], rest, by simp [hraw], hdot, hstart, hname, hgap,
      ?_⟩
    simp only [Edit.replace, ArgumentStyle.callback, hstyle, Edit.mk.injEq,
      Text.byteLength_append, Text.byteLength_cons, Text.byteLength_nil, hopen, hclose]
    exact ⟨trivial, by omega, by simp⟩

lemma exists_rewritesHead {source : Text} {site : CallSite} (hsite : site.text.Located source)
    {call : CallId} {variant : ScriptVariant} {edit : Edit}
    (h : site.replacementEdit call variant = .ok edit) :
    ∃ r, call.replacement? = some r ∧ site.RewritesHead r variant edit := by
  cases hr : call.replacement? with
  | none => simp [replacementEdit, hr] at h
  | some r =>
    have hform := replacementEdit_safe hsite hr variant
    rw [h] at hform
    exact ⟨r, rfl, hform⟩

lemma RewritesHead.length_pos {site : CallSite} {r : Replacement} {variant : ScriptVariant}
    {edit : Edit} (h : site.RewritesHead r variant edit) : 0 < edit.length := by
  obtain ⟨lead, dot, name, gap, kept, rest, -, -, -, -, -, rfl⟩ := h
  have hopen : '('.utf8Size = 1 := rfl
  simp only [Text.byteLength_append, Text.byteLength_cons, hopen]
  omega

/-- The edit of a call is worked out if a parenthesis opens behind the name and the text of the call
ends with a closing one. -/
lemma replacementEdit_succeeds {source : Text} {site : CallSite} (hsite : site.text.Located source)
    {call : CallId} {r : Replacement} (hr : call.replacement? = some r) {before name after : Text}
    (hraw : site.text.raw = before ++ name ++ after)
    (hstart : site.nameStart = .ok (Text.byteLength before))
    (hname : Text.byteLength name = site.nameLength) (hopening : '(' ∈ after)
    (hclosing : after.getLast? = some ')') (variant : ScriptVariant) :
    (site.replacementEdit call variant).Succeeds := by
  have hsafe := replacementEdit_safe hsite hr variant
  obtain ⟨p, hp⟩ := exists_pieces before name hopening hclosing
  have hne : ∀ e, site.replacementEdit call variant ≠ .error e := by
    intro e
    rw [replacementEdit, hr]
    simp only [hstart, hraw, ← hname, hp, Outcome.ok_bind]
    exact Outcome.bind_ne_error Outcome.addOffsets_ne_error fun _ =>
      Outcome.bind_ne_error Outcome.addOffsets_ne_error fun _ => by simp
  cases hedit : site.replacementEdit call variant with
  | ok edit => exact ⟨edit, rfl⟩
  | error e => exact absurd hedit (hne e)
  | abort c =>
    rw [hedit] at hsafe
    exact hsafe.elim

/-- **The replacement of a modal call changes only its head.** If an invocation is located and the
edit of it is worked out, then applying the edit to the text of the module gives what stands before
the name, the new name, an opening parenthesis, a comma unless the style passes the arguments on as
they are, and what stands behind the first opening parenthesis after the name. -/
theorem applyAll_replacementEdit {scope : Scope} {e : Expression} {site : CallSite} {call : CallId}
    {r : Replacement} {variant : ScriptVariant} {edit : Edit}
    (hsite : ofInvocation scope e = .ok site) (hr : call.replacement? = some r)
    (hedit : site.replacementEdit call variant = .ok edit) :
    ∃ n o before after, site.nameStart = .ok n ∧
      Outline.findChar site.text.raw '(' (n + site.nameLength) = some o ∧
      Text.take? scope.module.source (site.text.start + n) = some before ∧
      Text.drop? scope.module.source (site.text.start + o + 1) = some after ∧
      Edit.applyAll scope.module.source [edit] =
        .ok (before ++ r.name.textIn variant ++ ['('] ++ r.style.callback ++ after) := by
  have hlocated := located_of_ofInvocation hsite
  have hform := replacementEdit_safe hlocated hr variant
  rw [hedit] at hform
  obtain ⟨lead, dot, name, gap, kept, rest, hraw, -, hstart, hname, hgap, rfl⟩ := hform
  obtain ⟨a, b, hsource, ha, hstop⟩ := hlocated.exists_around
  have hopen : '('.utf8Size = 1 := rfl
  rw [hraw] at hsource hstop
  refine ⟨_, Text.byteLength (lead ++ dot ++ name ++ gap), a ++ lead ++ dot, kept ++ rest ++ b,
    hstart, ?_, ?_, ?_, ?_⟩
  · have hdrop : Text.drop? site.text.raw (Text.byteLength (lead ++ dot) + site.nameLength) =
        some (gap ++ '(' :: (kept ++ rest)) :=
      Text.drop?_eq_some_iff.2 ⟨lead ++ dot ++ name, by simp [hraw],
        by rw [Text.byteLength_append, hname]⟩
    rw [Outline.findChar, hdrop, Option.bind_some, Outline.findCharFrom_append hgap, ← hname,
      ← Text.byteLength_append, ← Text.byteLength_append]
  · exact Text.take?_eq_some_iff.2 ⟨name ++ gap ++ '(' :: kept ++ rest ++ b, by simp [hsource],
      by simp [ha]⟩
  · refine Text.drop?_eq_some_iff.2
      ⟨a ++ lead ++ dot ++ name ++ gap ++ ['('], by simp [hsource], ?_⟩
    simp only [Text.byteLength_append, Text.byteLength_cons, Text.byteLength_nil, ha, hopen]
    omega
  · have hcut : scope.module.source =
        a ++ lead ++ (dot ++ name ++ gap ++ '(' :: kept) ++ (rest ++ b) := by simp [hsource]
    rw [hcut, Edit.applyAll_singleton (rest ++ b) ?_ (by simp [ha]) rfl]
    · simp
    · have hlt := hlocated.lt
      simp only [Edit.stop, Text.byteLength_append] at hstop ⊢
      omega

/-- A call of a member, its name in other letters and apart from its arguments. -/
theorem applyAll_replacementEdit_member :
    let m : Module := ⟨"М".toList, "  Ф.OpenValue (п);".toList, .all, [], []⟩
    let e : Expression := .invocation "openvalue".toList
      (some (.access "Ф".toList none (some ⟨2, 2⟩))) [none] (some ⟨2, 17⟩)
    ∃ site edit, ofInvocation (Scope.ofModule m) e = .ok site ∧
      site.replacementEdit .openValue .alternate = .ok edit ∧
      Edit.applyAll m.source [edit] = .ok "  Ф.ShowValue(,п);".toList := by
  intro m e
  let site : CallSite :=
    ⟨m, "openvalue".toList, ⟨2, 17, 1, "Ф.OpenValue (п)".toList⟩, some 2, none, .all⟩
  have hsite : ofInvocation (Scope.ofModule m) e = .ok site := rfl
  have hedit : site.replacementEdit .openValue .alternate =
      .ok ⟨4, 15, ".ShowValue(,п)".toList⟩ := by decide +kernel
  refine ⟨site, _, hsite, hedit, ?_⟩
  obtain ⟨n, o, before, after, hn, ho, hbefore, hafter, happly⟩ :=
    applyAll_replacementEdit hsite rfl hedit
  have hname : site.nameStart = .ok 3 := by decide +kernel
  rw [hname] at hn
  cases hn
  have hopen : Outline.findChar "Ф.OpenValue (п)".toList '(' (3 + 9) = some 13 := by decide +kernel
  cases ho.symm.trans hopen
  cases hbefore
  cases hafter
  exact happly

end CallSite

end BslLint
