import BslLint.Proofs.Condition.Grammar

/-!
Writing a condition, and that what is written is read back. Words are set apart by single blanks,
and a conjunction or disjunction that is an operand stands in parentheses, so that the tokens of a
written condition are those of a derivation of it.
-/

namespace BslLint.Condition

/-- A text in parentheses, if it is the text of a conjunction or a disjunction. -/
def enclosed : Condition → Text → Text
  | .and _, t | .or _, t => '(' :: (t ++ [')'])
  | .symbol _, t | .not _, t => t

mutual

/-- The text of a condition in the spelling of a variant. -/
def print (variant : ScriptVariant) : Condition → Text
  | .symbol s => s.spelling.textIn variant
  | .not c => notWord.textIn variant ++ ' ' :: c.enclosed (c.print variant)
  | .and parts => printParts variant andWord parts
  | .or parts => printParts variant orWord parts

def printParts (variant : ScriptVariant) (join : Spelling) : List Condition → Text
  | [] => []
  | [c] => c.enclosed (c.print variant)
  | c :: c' :: cs =>
    c.enclosed (c.print variant) ++
      ' ' :: (join.textIn variant ++ ' ' :: printParts variant join (c' :: cs))

end

/-! ### The tokens of a written condition -/

lemma not_isIdentifier_blank : Text.isIdentifier ' ' = false := by decide +kernel

@[simp] lemma tokens_blank (t : Text) : tokens (' ' :: t) = tokens t :=
  tokens_separator not_isIdentifier_blank (by decide) (by decide) t

lemma isName_textIn {w : Spelling} (hw : w ∈ vocabulary) (variant : ScriptVariant) :
    (w.textIn variant).IsName := by
  have hall : ∀ w ∈ vocabulary,
      Text.IsName w.primary.toList ∧ Text.IsName w.alternate.toList := by
    simp only [vocabulary, notWord, andWord, orWord, Symbol.all, Symbol.spelling, List.map_cons,
      List.map_nil, List.forall_mem_cons]
    repeat rw [String.toList_ofList]
    decide +kernel
  cases variant with
  | primary => exact (hall w hw).1
  | alternate => exact (hall w hw).2

lemma covers_textIn (w : Spelling) (variant : ScriptVariant) :
    w.covers (w.textIn variant) = true := by
  cases variant with
  | primary => simp [Spelling.covers, Spelling.textIn, Spelling.inVariant, ScriptVariant.pick,
      Text.sameName]
  | alternate => simp [Spelling.covers, Spelling.textIn, Spelling.inVariant, ScriptVariant.pick,
      Text.sameName]

lemma tokens_word_blank {w : Text} (hw : w.IsName) (t : Text) :
    tokens (w ++ ' ' :: t) = .word w :: tokens t := by
  rw [tokens_append_of_endsWord hw (by simp [Text.endsWord, not_isIdentifier_blank]), tokens_blank]

lemma tokens_parentheses (t : Text) :
    tokens ('(' :: (t ++ [')'])) = .opening :: (tokens t ++ [.closing]) := by
  rw [tokens_opening, tokens_append_cons not_isIdentifier_closing, tokens_closing, tokens_nil]

lemma connective_word_mem_vocabulary (k : Connective) : k.word ∈ vocabulary := by
  cases k <;> simp [Connective.word, vocabulary]

lemma exists_chain {variant : ScriptVariant} {k : Connective} {parts : List Condition}
    (hne : parts ≠ [])
    (h : ∀ c ∈ parts, ∃ d : Derivation k.operand,
      d.tokens = tokens (c.enclosed (c.print variant)) ∧ d.value = c) :
    ∃ d : Derivation (.chain k),
      d.tokens = tokens (printParts variant k.word parts) ∧ d.operands = parts := by
  induction parts with
  | nil => exact absurd rfl hne
  | cons c cs ih =>
    obtain ⟨d, htokens, hvalue⟩ := h c (by simp)
    cases cs with
    | nil => exact ⟨.last k d, htokens, by rw [Derivation.operands, hvalue]⟩
    | cons c' cs =>
      obtain ⟨rest, hrest, hoperands⟩ := ih (by simp) fun x hx => h x (by simp [hx])
      have hword := isName_textIn (connective_word_mem_vocabulary k) variant
      refine ⟨.more k d _ (covers_textIn k.word variant) rest, ?_, ?_⟩
      · rw [printParts, tokens_append_cons not_isIdentifier_blank, tokens_blank,
          tokens_word_blank hword, ← htokens, ← hrest, Derivation.tokens]
      · rw [Derivation.operands, hvalue, hoperands]

lemma Derivation.value_of_operands {k : Connective} {d : Derivation (.chain k)}
    {parts : List Condition} (h : d.operands = parts) (hlen : 2 ≤ parts.length) :
    d.value = k.connect parts := by
  subst h
  cases d with
  | last _ d => simp [Derivation.operands] at hlen
  | more => rfl

lemma exists_group {c : Condition} {t : Text} {d : Derivation (.chain .or)}
    (htokens : d.tokens = tokens t) (hvalue : d.value = c) :
    ∃ d : Derivation .operand, d.tokens = tokens ('(' :: (t ++ [')'])) ∧ d.value = c :=
  ⟨.group d, by rw [Derivation.tokens, htokens, tokens_parentheses], hvalue⟩

-- By induction on the condition: on its own it is a disjunction, in a larger one an operand.
lemma Proper.exists_derivation {c : Condition} (h : c.Proper) (variant : ScriptVariant) :
    (∃ d : Derivation (.chain .or), d.tokens = tokens (c.print variant) ∧ d.value = c) ∧
      ∃ d : Derivation .operand,
        d.tokens = tokens (c.enclosed (c.print variant)) ∧ d.value = c := by
  induction h with
  | symbol s =>
    have hname := isName_textIn (spelling_mem_vocabulary s) variant
    have htokens : tokens (s.spelling.textIn variant) = [.word (s.spelling.textIn variant)] := by
      simpa using tokens_append_of_endsWord hname (t := []) rfl
    let d : Derivation .operand := .symbol _ s (covers_textIn s.spelling variant)
    exact ⟨⟨.last .or (.last .and d), htokens.symm, rfl⟩, ⟨d, htokens.symm, rfl⟩⟩
  | @not c _ ih =>
    obtain ⟨-, d, htokens, rfl⟩ := ih
    have hname := isName_textIn notWord_mem_vocabulary variant
    let n : Derivation .operand := .negation _ (covers_textIn notWord variant) d
    have hn : n.tokens = tokens ((Condition.not d.value).print variant) := by
      rw [print, tokens_word_blank hname, ← htokens]
      rfl
    exact ⟨⟨.last .or (.last .and n), hn, rfl⟩, ⟨n, hn, rfl⟩⟩
  | @and parts hlen _ ih =>
    have hne : parts ≠ [] := by
      rintro rfl
      simp at hlen
    obtain ⟨d, htokens, hoperands⟩ := exists_chain (k := .and) hne fun c hc => (ih c hc).2
    have hvalue := Derivation.value_of_operands hoperands hlen
    have hwhole : (Derivation.last .or d).tokens =
        tokens ((Condition.and parts).print variant) := by
      rw [print]
      exact htokens
    exact ⟨⟨.last .or d, hwhole, hvalue⟩, exists_group hwhole hvalue⟩
  | @or parts hlen _ ih =>
    have hne : parts ≠ [] := by
      rintro rfl
      simp at hlen
    -- An operand is the conjunction of itself alone.
    have hparts : ∀ c ∈ parts, ∃ d : Derivation (.chain .and),
        d.tokens = tokens (c.enclosed (c.print variant)) ∧ d.value = c := by
      intro c hc
      obtain ⟨-, d, hd, hvalue⟩ := ih c hc
      exact ⟨.last .and d, hd, hvalue⟩
    obtain ⟨d, htokens, hoperands⟩ := exists_chain (k := .or) hne hparts
    have hvalue := Derivation.value_of_operands hoperands hlen
    have hwhole : d.tokens = tokens ((Condition.or parts).print variant) := by
      rw [print]
      exact htokens
    exact ⟨⟨d, hwhole, hvalue⟩, exists_group hwhole hvalue⟩

/-- **What is written is read back**, in either spelling, and holds in the same environments. -/
theorem parse?_print {c : Condition} (h : c.Proper) (variant : ScriptVariant) :
    ∃ c', parse? (c.print variant) = some c' ∧ c' = c ∧ c'.environments = c.environments := by
  obtain ⟨⟨d, htokens, hvalue⟩, -⟩ := h.exists_derivation variant
  exact ⟨d.value, parse?_of_tokens htokens, hvalue, by rw [hvalue]⟩

/-- A condition with every kind of node, and operands in parentheses at two depths. -/
def clientOrServer : Condition :=
  .or [.not (.and [.symbol .client, .not (.symbol .webClient)]),
    .and [.symbol .server, .or [.symbol .thinClient, .symbol .atServer]]]

lemma proper_clientOrServer : clientOrServer.Proper := by
  have hclient : Proper (.and [.symbol .client, .not (.symbol .webClient)]) :=
    .and (by simp) (by simpa using ⟨.symbol _, .not (.symbol _)⟩)
  have hserver : Proper (.or [.symbol .thinClient, .symbol .atServer]) :=
    .or (by simp) (by simpa using ⟨.symbol _, .symbol _⟩)
  have hboth : Proper (.and [.symbol .server, .or [.symbol .thinClient, .symbol .atServer]]) :=
    .and (by simp) (by simpa using ⟨.symbol _, hserver⟩)
  exact .or (by simp) (by simpa using ⟨.not hclient, hboth⟩)

theorem parse?_print_nested :
    clientOrServer.Proper ∧
      clientOrServer.print .primary =
        "НЕ (Клиент И НЕ ВебКлиент) ИЛИ (Сервер И (ТонкийКлиент ИЛИ НаСервере))".toList ∧
      ∃ c', parse? (clientOrServer.print .primary) = some c' ∧ c' = clientOrServer ∧
        c'.environments = clientOrServer.environments := by
  refine ⟨proper_clientOrServer, ?_, parse?_print proper_clientOrServer .primary⟩
  simp only [clientOrServer, print, printParts, enclosed, Spelling.textIn, Spelling.inVariant,
    ScriptVariant.pick, Symbol.spelling, notWord, andWord, orWord]
  repeat rw [String.toList_ofList]
  rfl

end BslLint.Condition
