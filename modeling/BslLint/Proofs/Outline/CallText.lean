import BslLint.Proofs.Lint.Placement
import BslLint.Proofs.Outline.Gap
import BslLint.Proofs.Outline.Soundness

/-!
Calls as they stand in a text, and what becomes of them.

A call is placed by one search for its name and located by another one: the first knows the cursor
and keeps away from preprocessor words, the second knows the text of the call and where the receiver
ends in it. The parentheses are found by a scan that matches them and passes over strings, and then
again as the first one behind the name and the last one of the text. `CallText.Spells` is what both
have in common: how the text of a call is made up. Where it holds, the call is located, its name is
found in it, and its replacement is worked out.
-/

namespace BslLint

/-- A text with a call in it: what stands before the call, the receiver, what stands between the
receiver and the name, the name as it is written, what stands between the name and the opening
parenthesis, the arguments up to the closing one, and what follows. -/
structure CallText where
  before : Text
  receiver : Text
  lead : Text
  word : Text
  gap : Text
  args : Text
  after : Text

/-- The call has a site, its name is found there, and its replacement is worked out in either
variant and passes the check. -/
def Expression.ReplaceableIn (scope : Scope) (call : CallId) (e : Expression) : Prop :=
  ∃ site start, CallSite.ofInvocation scope e = .ok site ∧ site.nameStart = .ok start ∧
    ∀ variant, ∃ edit, site.replacementEdit call variant = .ok edit ∧
      edit.validate scope.module.source = .ok ()

namespace CallText

/-- The call from its name on. -/
def named (t : CallText) : Text := t.word ++ (t.gap ++ '(' :: (t.args ++ [')']))

/-- The call itself. -/
def raw (t : CallText) : Text := t.receiver ++ t.lead ++ t.named

/-- A call of the name, with the receiver and the span, stands in the source as in the text. -/
structure Spells (t : CallText) (source name : Text) (receiver : Option Expression) (span : Span) :
    Prop where
  source_eq : source = t.before ++ t.raw ++ t.after
  span_eq : span = ⟨Text.byteLength t.before, Text.byteLength t.raw⟩
  receiver_stop : ((receiver.bind Expression.span).map Span.stop).getD (Text.byteLength t.before) =
    Text.byteLength (t.before ++ t.receiver)
  starts : Text.startsWithWord name (t.receiver ++ t.lead).getLast? t.named = true
  length_eq : Text.byteLength t.word = Text.byteLength name

variable {t : CallText} {source name : Text} {receiver : Option Expression} {span : Span}

lemma Spells.exists_site (h : t.Spells source name receiver span)
    (hlt : Text.byteLength source < offsetLimit) {scope : Scope}
    (hscope : scope.module.source = source) (params : List (Option Expression)) :
    ∃ site, CallSite.ofInvocation scope (.invocation name receiver params (some span)) = .ok site ∧
      site.callee = name ∧ site.text.raw = t.raw ∧ site.text.start = Text.byteLength t.before ∧
      site.receiverEnd.getD 0 = Text.byteLength t.receiver := by
  obtain ⟨hsource, rfl, hstop, -, -⟩ := h
  have hraw : Text.byteLength t.raw =
      Text.byteLength t.receiver + Text.byteLength (t.lead ++ t.named) := by
    rw [raw, List.append_assoc, Text.byteLength_append]
  have hend : Span.Fits ⟨Text.byteLength t.before, Text.byteLength t.raw⟩ := by
    rw [hsource] at hlt
    simp only [Text.byteLength_append] at hlt
    simp only [Span.Fits, Span.stop]
    omega
  have hslice : Text.slice? source (Text.byteLength t.before)
      (Text.byteLength t.before + Text.byteLength t.raw) = some t.raw :=
    Text.slice?_eq_some_iff.2 ⟨t.before, t.after, hsource, rfl, rfl⟩
  have hlocate : locate source (some ⟨Text.byteLength t.before, Text.byteLength t.raw⟩) =
      .ok ⟨Text.byteLength t.before, Text.byteLength t.raw,
        Text.rowAt source (Text.byteLength t.before), t.raw⟩ := by
    rw [locate, Span.checkedStop_of_fits hend, Outcome.ok_bind]
    dsimp only [Span.stop]
    rw [hslice]
    rfl
  rw [Text.byteLength_append] at hstop
  rw [CallSite.ofInvocation, hscope, hlocate, Outcome.ok_bind, CallSite.receiverEndIn]
  cases hreceiver : receiver.bind Expression.span with
  | none =>
    rw [hreceiver] at hstop
    refine ⟨_, rfl, rfl, rfl, rfl, ?_⟩
    simp only [Option.map_none, Option.getD_none] at hstop ⊢
    omega
  | some s =>
    rw [hreceiver] at hstop
    simp only [Option.map_some, Option.getD_some] at hstop
    have hfits : s.Fits := by
      simp only [Span.Fits, Span.stop] at hend ⊢ hstop
      omega
    dsimp only
    rw [Span.checkedStop_of_fits hfits, Outcome.ok_bind, hstop]
    refine ⟨_, rfl, rfl, rfl, rfl, ?_⟩
    simp [hraw]

/-- The name is found where it stands, or at another occurrence behind the receiver and in front of
it; either way a parenthesis opens behind it, and the call ends with a closing one. -/
lemma Spells.exists_nameStart (h : t.Spells source name receiver span) {site : CallSite}
    (hcallee : site.callee = name) (hraw : site.text.raw = t.raw)
    (hend : site.receiverEnd.getD 0 = Text.byteLength t.receiver) :
    ∃ before word after, site.nameStart = .ok (Text.byteLength before) ∧
      site.text.raw = before ++ word ++ after ∧ Text.byteLength word = site.nameLength ∧
      Text.byteLength before ≤ Text.byteLength (t.receiver ++ t.lead) ∧
      '(' ∈ after ∧ after.getLast? = some ')' := by
  have hne : t.named ≠ [] := by simp [named]
  obtain ⟨n, hn, hle⟩ := Text.exists_findWord? hne h.starts
  have hstart : site.nameStart = .ok n := by
    rw [CallSite.nameStart, hcallee, hraw, hend, raw, hn]
    rfl
  obtain ⟨before, word, after, hpieces, rfl, hword⟩ := CallSite.exists_of_nameStart hstart
  refine ⟨before, word, after, hstart, hpieces, hword, hle, ?_⟩
  have hcut : before ++ word ++ after =
      t.receiver ++ t.lead ++ t.word ++ (t.gap ++ '(' :: (t.args ++ [')'])) := by
    rw [← hpieces, hraw, raw, named, List.append_assoc (t.receiver ++ t.lead)]
  have hshort : Text.byteLength (before ++ word) ≤
      Text.byteLength (t.receiver ++ t.lead ++ t.word) := by
    rw [Text.byteLength_append, Text.byteLength_append (t.receiver ++ t.lead), hword,
      CallSite.nameLength, hcallee, h.length_eq]
    omega
  obtain ⟨m, -, hafter⟩ := Text.exists_between hcut hshort
  have hlast : after = m ++ t.gap ++ '(' :: t.args ++ [')'] := by simp [hafter]
  rw [hlast]
  exact ⟨by simp, List.getLast?_concat⟩

lemma Spells.exists_replacements (h : t.Spells source name receiver span)
    (hlt : Text.byteLength source < offsetLimit) {scope : Scope}
    (hscope : scope.module.source = source) (params : List (Option Expression)) :
    ∃ site n, CallSite.ofInvocation scope (.invocation name receiver params (some span)) =
        .ok site ∧
      site.callee = name ∧ site.text.raw = t.raw ∧ site.text.start = Text.byteLength t.before ∧
      site.nameStart = .ok n ∧ n ≤ Text.byteLength (t.receiver ++ t.lead) ∧
      ∀ {call : CallId} {r : Replacement}, call.replacement? = some r → ∀ variant,
        ∃ edit, site.replacementEdit call variant = .ok edit ∧
          site.RewritesHead r variant edit := by
  obtain ⟨site, hsite, hcallee, hraw, hstart, hend⟩ := h.exists_site hlt hscope params
  obtain ⟨before, word, after, hfound, hpieces, hword, hle, hopening, hclosing⟩ :=
    h.exists_nameStart hcallee hraw hend
  have hlocated := CallSite.located_of_ofInvocation hsite
  refine ⟨site, _, hsite, hcallee, hraw, hstart, hfound, hle, fun {call r} hr variant => ?_⟩
  obtain ⟨edit, hedit⟩ := CallSite.replacementEdit_succeeds hlocated hr hpieces hfound hword
    hopening hclosing variant
  have hform := CallSite.replacementEdit_safe hlocated hr variant
  rw [hedit] at hform
  exact ⟨edit, hedit, hform⟩

/-- **A call that stands in the text can be replaced.** -/
lemma Spells.replaceableIn (h : t.Spells source name receiver span)
    (hlt : Text.byteLength source < offsetLimit) {scope : Scope}
    (hscope : scope.module.source = source) (params : List (Option Expression)) {call : CallId}
    (hcall : call.isModal = true) :
    (Expression.invocation name receiver params (some span)).ReplaceableIn scope call := by
  obtain ⟨r, hr⟩ := Option.isSome_iff_exists.1 hcall
  obtain ⟨site, n, hsite, -, -, -, hfound, -, hedits⟩ := h.exists_replacements hlt hscope params
  refine ⟨site, n, hsite, hfound, fun variant => ?_⟩
  obtain ⟨edit, hedit, -⟩ := hedits hr variant
  have hlocated := CallSite.located_of_ofInvocation hsite
  have hvalid := Rules.replacementEdit_validate hlocated call variant
  rw [hedit] at hvalid
  exact ⟨edit, hedit, hvalid⟩

end CallText

/-! ### Calls that are placed -/

namespace Outline

variable {source name : Text} {receiver : Option Expression} {span : Span} {cursor : Nat}

lemma exists_of_parens {a b : Text} {closing : Nat} (hsource : source = a ++ '(' :: b)
    (h : matchingParen source (Text.byteLength a) = some closing) :
    ∃ args after, b = args ++ ')' :: after ∧ closing = Text.byteLength (a ++ '(' :: args) := by
  obtain ⟨hle, a', after, hsource', rfl⟩ := exists_of_matchingParen h
  obtain ⟨m, rfl, hm⟩ := Text.exists_between (hsource.symm.trans hsource') hle
  cases m with
  | nil => cases hm
  | cons c args =>
    obtain ⟨rfl, rfl⟩ := List.cons.inj hm
    exact ⟨args, after, rfl, rfl⟩

lemma exists_spells {start : Option Nat}
    (h : callSpan start ((openingParen source (search source [name] cursor)).bind
      (matchingParen source)) = some span)
    (hstart : ∀ p ∈ start, ∀ s ∈ search source [name] cursor,
      ∃ stop, ((receiver.bind Expression.span).map Span.stop).getD p = stop ∧
        Text.isBoundary source p = true ∧ Text.isBoundary source stop = true ∧
        p ≤ stop ∧ stop ≤ s.offset) :
    ∃ t : CallText, t.Spells source name receiver span := by
  obtain ⟨p, hp, h⟩ := Option.bind_eq_some_iff.1 h
  obtain ⟨closing, hclosing, h⟩ := Option.bind_eq_some_iff.1 h
  cases h
  obtain ⟨opening, hopening, hmatch⟩ := Option.bind_eq_some_iff.1 hclosing
  obtain ⟨s, hs, hbehind, a, b, hsource, rfl⟩ := exists_of_openingParen hopening
  obtain ⟨_, hword, front, word, rest, hfound, rfl, -, hlength, hname, hbefore, hafter⟩ :=
    exists_word_of_search hs
  obtain rfl := List.mem_singleton.1 hword
  -- The text is cut at both parentheses, at the ends of the name, and at those of the receiver.
  obtain ⟨args, after, rfl, rfl⟩ := exists_of_parens hsource hmatch
  obtain ⟨gap, rfl, rfl⟩ := Text.exists_between (hfound.symm.trans hsource)
    (by simpa [Span.stop] using hbehind)
  obtain ⟨stop, hstop, hp, hstop', hle, hle'⟩ := hstart p hp _ hs
  obtain ⟨before, _, hcut, rfl⟩ := Text.isBoundary_iff.1 hp
  obtain ⟨_, _, hcut', rfl⟩ := Text.isBoundary_iff.1 hstop'
  obtain ⟨object, rfl, -⟩ := Text.exists_between (hcut.symm.trans hcut') hle
  rw [List.append_assoc front] at hfound
  obtain ⟨lead, rfl, -⟩ := Text.exists_between (hcut'.symm.trans hfound) hle'
  refine ⟨⟨before, object, lead, word, gap, args, after⟩, ?_, ?_, hstop, ?_, hlength⟩
  · simp [hfound, CallText.raw, CallText.named]
  · have hsize : ')'.utf8Size = 1 := rfl
    simp only [Span.between, CallText.raw, CallText.named, Span.mk.injEq, true_and,
      Text.byteLength_append, Text.byteLength_cons, Text.byteLength_nil, hsize]
    omega
  · refine Text.startsWithWord_iff.2
      ⟨word, gap ++ '(' :: (args ++ [')']), rfl, hlength, hname, ?_, ?_⟩
    · rw [List.append_assoc, List.getLast?_append] at hbefore
      have hends := (startsWord_iff.1 hbefore).1
      cases hlast : (object ++ lead).getLast? with
      | none => rfl
      | some c => rwa [hlast, Option.some_or] at hends
    · cases gap <;> exact hafter

end Outline

namespace ExpressionOutline

open Outline

/-- **A call that is placed stands in the text.** -/
lemma exists_spells_of_place {o : ExpressionOutline} {source name : Text} {cursor cursor' : Nat}
    {receiver : Option Expression} {params : List (Option Expression)} {span : Span}
    (hcursor : Text.isBoundary source cursor = true)
    (h : o.place source cursor = .ok (.invocation name receiver params (some span), cursor')) :
    ∃ t : CallText, t.Spells source name receiver span := by
  cases o with
  | call _ os =>
    obtain ⟨⟨es, c⟩, -, h⟩ := Outcome.bind_eq_ok_iff.1 h
    simp only [Outcome.pure_eq, Outcome.ok.injEq, Prod.mk.injEq, Expression.invocation.injEq] at h
    obtain ⟨⟨rfl, rfl, -, hspan⟩, -⟩ := h
    refine exists_spells hspan fun p hp s hs => ?_
    rw [hs] at hp
    cases hp
    have hon := (exists_of_search hs).1
    exact ⟨s.offset, rfl, hon.offset, hon.offset, Nat.le_refl _, Nat.le_refl _⟩
  | methodCall o _ os =>
    obtain ⟨⟨e, c⟩, ho, h⟩ := Outcome.bind_eq_ok_iff.1 h
    obtain ⟨⟨es, c'⟩, -, h⟩ := Outcome.bind_eq_ok_iff.1 h
    simp only [Outcome.pure_eq, Outcome.ok.injEq, Prod.mk.injEq, Expression.invocation.injEq] at h
    obtain ⟨⟨rfl, rfl, -, hspan⟩, -⟩ := h
    have hsafe := o.place_safe hcursor
    rw [ho] at hsafe
    refine exists_spells hspan fun p hp s hs => ?_
    -- The receiver ends where the search for the name begins.
    obtain ⟨s', hs', rfl⟩ := Option.map_eq_some_iff.1 hp
    obtain ⟨hon, -, hstop⟩ := hsafe.sought.found s' hs'
    refine ⟨s'.stop, by simp [hs'], hon.offset, hon.stop, Nat.le_add_right _ _, ?_⟩
    rw [hstop]
    exact (exists_of_search hs).2
  | ident | boolean | number | undefined => cases h
  | string text =>
    obtain ⟨_, -, h⟩ := Outcome.bind_eq_ok_iff.1 h
    cases h
  | member o _ | not o =>
    obtain ⟨_, -, h⟩ := Outcome.bind_eq_ok_iff.1 h
    cases h
  | binary op l r =>
    obtain ⟨_, -, h⟩ := Outcome.bind_eq_ok_iff.1 h
    obtain ⟨_, -, h⟩ := Outcome.bind_eq_ok_iff.1 h
    cases h

/-! ### A call at the front of a text -/

variable {source name args rest : Text}

lemma place_call_front (hsource : source = name ++ '(' :: (args ++ ')' :: rest)) (hname : name ≠ [])
    (hargs : Balanced args) (params : List (Option ExpressionOutline)) :
    ∃ es cursor, (ExpressionOutline.call name params).place source 0 =
      .ok (.invocation name none es
        (some ⟨0, Text.byteLength (name ++ '(' :: (args ++ [')']))⟩), cursor) := by
  have hfound : search source [name] 0 = some ⟨0, Text.byteLength name⟩ := by
    rw [hsource]
    exact search_front hname (closes_opening _)
  have hcut : source = [] ++ name ++ '(' :: (args ++ ')' :: rest) := hsource
  have hopening : openingParen source (some ⟨0, Text.byteLength name⟩) =
      some (Text.byteLength name) := openingParen_eq hcut
  have hclosing := matchingParen_eq hsource hargs
  have hbehind : Text.isBoundary source (Text.byteLength name + 1) = true := by
    rw [hsource]
    exact isBoundary_succ rfl
  obtain ⟨⟨es, c⟩, hparams, -⟩ :=
    Outcome.safe_checked_iff.1 (placeParams_safe params hbehind)
  have hstop : Text.byteLength (name ++ '(' :: args) + 1 =
      Text.byteLength (name ++ '(' :: (args ++ [')'])) := by
    have hsize : ')'.utf8Size = 1 := rfl
    simp only [Text.byteLength_append, Text.byteLength_cons, Text.byteLength_nil, hsize]
    omega
  refine ⟨es, Text.byteLength (name ++ '(' :: args) + 1, ?_⟩
  rw [place, ← hstop]
  simp only [hfound, hopening, behind, hparams, Outcome.ok_bind, Option.bind_some, hclosing]
  rfl

lemma spells_front (hsource : source = name ++ '(' :: (args ++ ')' :: rest)) :
    CallText.Spells ⟨[], [], [], name, [], args, rest⟩ source name none
      ⟨0, Text.byteLength (name ++ '(' :: (args ++ [')']))⟩ where
  source_eq := by simp [hsource, CallText.raw, CallText.named]
  span_eq := rfl
  receiver_stop := rfl
  starts := Text.startsWithWord_iff.2 ⟨name, '(' :: (args ++ [')']), rfl, rfl,
    by simp [Text.sameName], rfl, (closes_opening _).endsWord⟩
  length_eq := rfl

end ExpressionOutline

lemma CallId.ne_nil_of_covers {call : CallId} {name : Text}
    (h : call.spelling.covers name = true) : name ≠ [] := by
  rintro rfl
  revert h
  cases call <;> decide +kernel

namespace CallSite

open Outline

lemma RewritesHead.exists_of_front {site : CallSite} {r : Replacement} {variant : ScriptVariant}
    {edit : Edit} (h : site.RewritesHead r variant edit) {name tail : Text}
    (hraw : site.text.raw = name ++ '(' :: tail) (hstart : site.nameStart = .ok 0)
    (hname : Text.byteLength name = site.nameLength) :
    ∃ kept rest, tail = kept ++ rest ∧
      edit = ⟨site.text.start, Text.byteLength (name ++ '(' :: kept),
        r.name.textIn variant ++ '(' :: (r.style.callback ++ kept)⟩ := by
  obtain ⟨lead, dot, m, gap, kept, rest, hcut, -, hfound, hm, hgap, rfl⟩ := h
  obtain ⟨rfl, rfl⟩ : lead = [] ∧ dot = [] := by
    have hzero := Outcome.ok.inj (hstart.symm.trans hfound)
    exact List.append_eq_nil_iff.1 (Text.byteLength_eq_zero_iff.1 hzero.symm)
  have hsplit : m ++ (gap ++ '(' :: (kept ++ rest)) = name ++ '(' :: tail := by
    rw [← hraw, hcut]
    simp
  obtain ⟨rfl, htail⟩ : m = name ∧ gap ++ '(' :: (kept ++ rest) = '(' :: tail := by
    obtain ⟨d, hd, htail⟩ := Text.exists_between hsplit (by omega)
    have hzero : Text.byteLength d = 0 := by
      rw [hd, Text.byteLength_append] at hname
      omega
    rw [Text.byteLength_eq_zero_iff.1 hzero] at hd htail
    exact ⟨by simpa using hd.symm, htail⟩
  cases gap with
  | nil =>
    refine ⟨kept, rest, (List.cons.inj htail).2.symm, ?_⟩
    simp
  | cons c gap =>
    obtain ⟨rfl, -⟩ := List.cons.inj htail
    exact absurd List.mem_cons_self hgap

/-- **Placing a modal call, replacing and editing it keeps the arguments.** A text begins with a
modal call in one of its spellings, in letters of any case. The parentheses in the arguments match,
except that those in strings do not count, and anything may follow the call. Then the call is placed
and located, its replacement is worked out, and applying it gives the new name, an empty argument
for the callback unless the style passes the arguments on as they are, and the same arguments, with
what follows them unchanged. -/
theorem applyAll_placed_call {call : CallId} {r : Replacement} (hr : call.replacement? = some r)
    {name args rest : Text} (hname : call.spelling.covers name = true)
    (hargs : depthBehind 0 false args = some (0, false)) (variant : ScriptVariant)
    (params : List (Option ExpressionOutline)) {scope : Scope}
    (hsource : scope.module.source = name ++ '(' :: (args ++ ')' :: rest))
    (hlt : Text.byteLength scope.module.source < offsetLimit) :
    ∃ e cursor site edit,
      (ExpressionOutline.call name params).place scope.module.source 0 = .ok (e, cursor) ∧
      ofInvocation scope e = .ok site ∧ site.replacementEdit call variant = .ok edit ∧
      Edit.applyAll scope.module.source [edit] = .ok
        (r.name.textIn variant ++ '(' :: (r.style.callback ++ args ++ ')' :: rest)) := by
  obtain ⟨es, cursor, hplace⟩ := ExpressionOutline.place_call_front hsource
    (CallId.ne_nil_of_covers hname) (balanced_of_depthBehind hargs) params
  obtain ⟨site, n, hsite, hcallee, hraw, hstart, hfound, hle, hedits⟩ :=
    (ExpressionOutline.spells_front hsource).exists_replacements hlt rfl es
  obtain ⟨edit, hedit, hform⟩ := hedits hr variant
  have hfront : site.nameStart = .ok 0 := by
    rw [hfound, Nat.le_zero.1 hle]
  have hcall : site.text.raw = name ++ '(' :: (args ++ [')']) := hraw
  obtain ⟨kept, untouched, htail, rfl⟩ :=
    hform.exists_of_front hcall hfront (by rw [nameLength, hcallee])
  -- One part of the arguments is written again as it was, the other one is not touched.
  have hbehind : args ++ ')' :: rest = kept ++ (untouched ++ rest) := by
    rw [← List.append_assoc, ← htail, List.append_assoc, List.singleton_append]
  have hcut : scope.module.source = [] ++ (name ++ '(' :: kept) ++ (untouched ++ rest) := by
    rw [hsource, hbehind]
    simp
  refine ⟨_, cursor, site, _, hplace, hsite, hedit, ?_⟩
  rw [hcut] at hlt ⊢
  rw [Edit.applyAll_singleton (untouched ++ rest) ?_ hstart.symm rfl,
    List.append_assoc r.style.callback, hbehind]
  · simp
  · simp only [Edit.stop, hstart, Text.byteLength_append, Text.byteLength_nil] at hlt ⊢
    omega

/-- A call in other letters, with a parenthesis in a string and a call among its arguments, and with
more of both behind it. -/
theorem applyAll_placed_call_quoted :
    let m : Module :=
      ⟨"М".toList, "doQueryBox(\"a)\"\"(\", Ф(1)) + \")".toList, .all, [], []⟩
    ∃ e cursor site edit,
      (ExpressionOutline.call "doQueryBox".toList []).place m.source 0 = .ok (e, cursor) ∧
      ofInvocation (Scope.ofModule m) e = .ok site ∧
      site.replacementEdit .queryBox .alternate = .ok edit ∧
      Edit.applyAll m.source [edit] =
        .ok "ShowQueryBox(,\"a)\"\"(\", Ф(1)) + \")".toList := by
  intro m
  have hcovers : CallId.queryBox.spelling.covers "doQueryBox".toList = true := by decide +kernel
  have hargs : depthBehind 0 false "\"a)\"\"(\", Ф(1)".toList = some (0, false) := by decide +kernel
  have hsource : (Scope.ofModule m).module.source = "doQueryBox".toList ++
      '(' :: ("\"a)\"\"(\", Ф(1)".toList ++ ')' :: " + \")".toList) := by decide +kernel
  have hlt : Text.byteLength m.source < offsetLimit := by decide +kernel
  exact applyAll_placed_call rfl hcovers hargs .alternate [] hsource hlt

end CallSite

end BslLint
