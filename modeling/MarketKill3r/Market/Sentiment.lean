import MarketKill3r.Engine.Types
import MarketKill3r.Lib.Words

/-!
# The keyword sentiment (`app/services/news_service.py`)

`_keyword_sentiment` asks for each entry of the two lexicons whether it is a part of the lower-cased
text, be it a part of a longer word.

* `keyword_sentiment_iff`: **the hits are the entries that stand in the text as words exactly when no
  word contains an entry that is not itself a word of the text**, and no phrase occurs only as a part
  of something longer.
-/

namespace MarketKill3r

/-- `BULLISH_WORDS` -/
def bullishWords : List String :=
  ["rally", "surge", "soar", "jump", "gain", "gains", "rise", "rises", "rising",
    "bullish", "optimism", "upbeat", "strong", "strength", "beat", "beats",
    "outperform", "record high", "rebound", "recovery", "boost", "upgrade"]

/-- `BEARISH_WORDS` -/
def bearishWords : List String :=
  ["plunge", "slump", "tumble", "fall", "falls", "falling", "drop", "drops",
    "bearish", "pessimism", "weak", "weakness", "miss", "misses", "underperform",
    "record low", "selloff", "sell-off", "recession", "downgrade", "crash", "slide"]

/-- `str.lower`, and which characters are letters. Outside ASCII the model leaves both open. -/
structure TextTable where
  lower : List Char → List Char
  lower_ascii : ∀ s, (∀ c ∈ s, c.toNat < 128) → lower s = s.map Char.toLower
  isLetter : Char → Bool
  isLetter_ascii : ∀ c, c.toNat < 128 → isLetter c = c.isAlpha

/-- `sum(1 for w in lexicon if w in text_lower)` -/
def hits (lexicon : List String) (textLower : List Char) : Nat :=
  lexicon.countP fun w => w.toList <:+: textLower

/-- The score of `bull_hits` and `bear_hits`. -/
def hitScore (bullHits bearHits : Nat) : ℚ :=
  if bullHits + bearHits = 0 then 0
  else pyRound (((bullHits : ℚ) - bearHits) / (bullHits + bearHits : ℕ)) 3

/-- `_keyword_sentiment` -/
def keywordSentiment (tt : TextTable) (text : String) : ℚ :=
  let textLower := tt.lower text.toList
  hitScore (hits bullishWords textLower) (hits bearishWords textLower)

/-! ## Whole words -/

/-- The entries that stand in the text as words or phrases of their own. -/
def TextTable.wordHits (tt : TextTable) (lexicon : List String) (textLower : List Char) : Nat :=
  lexicon.countP fun w => Words.Delimited tt.isLetter w.toList textLower

/-- The hits are those of whole words, and so is the score. -/
structure KeywordsOnly (tt : TextTable) (text : String) : Prop where
  bullish : hits bullishWords (tt.lower text.toList) =
    tt.wordHits bullishWords (tt.lower text.toList)
  bearish : hits bearishWords (tt.lower text.toList) =
    tt.wordHits bearishWords (tt.lower text.toList)
  sentiment : keywordSentiment tt text =
    hitScore (tt.wordHits bullishWords (tt.lower text.toList))
      (tt.wordHits bearishWords (tt.lower text.toList))

/-- The entries of more than one word. -/
def phrases : List String := ["record high", "record low", "sell-off"]

/-- What a word of the text contains of the lexicons is a word of the text, and a phrase that occurs
also occurs on its own. -/
structure WordsApart (tt : TextTable) (text : String) : Prop where
  word : ∀ entry ∈ bullishWords ++ bearishWords, entry ∉ phrases →
    ∀ word ∈ Words.words tt.isLetter (tt.lower text.toList), entry.toList <:+: word →
      entry.toList ∈ Words.words tt.isLetter (tt.lower text.toList)
  phrase : ∀ entry ∈ phrases, entry.toList <:+: tt.lower text.toList →
    Words.Delimited tt.isLetter entry.toList (tt.lower text.toList)

variable {tt : TextTable}

/-- Of two tests of which one implies the other, the counts agree when the tests do. -/
theorem countP_eq_iff_of_imp {α : Type} {p q : α → Bool} {xs : List α}
    (h : ∀ x ∈ xs, q x = true → p x = true) :
    xs.countP p = xs.countP q ↔ ∀ x ∈ xs, p x = true → q x = true := by
  have hq : xs.countP q = (xs.filter p).countP q := by
    rw [List.countP_filter]
    exact List.countP_congr fun x hx => by simpa using h x hx
  rw [hq, List.countP_eq_length_filter, eq_comm, List.countP_eq_length]
  simp only [List.mem_filter, and_imp]

theorem hits_eq_wordHits_iff {lexicon : List String} {textLower : List Char} :
    hits lexicon textLower = tt.wordHits lexicon textLower ↔
      ∀ entry ∈ lexicon, entry.toList <:+: textLower →
        Words.Delimited tt.isLetter entry.toList textLower := by
  unfold hits TextTable.wordHits
  rw [countP_eq_iff_of_imp]
  · simp only [decide_eq_true_eq]
  · intro entry _ h
    simpa using (of_decide_eq_true h).isInfix

/-- An entry of one word consists of letters. -/
theorem letters_of_not_phrase (tt : TextTable) {entry : String}
    (h : entry ∈ bullishWords ++ bearishWords) (hphrase : entry ∉ phrases) :
    (∀ c ∈ entry.toList, tt.isLetter c) ∧ entry.toList ≠ [] := by
  have hascii : ∀ e ∈ bullishWords ++ bearishWords, e ∉ phrases →
      (e.toList.all fun c => decide (c.toNat < 128) && c.isAlpha) ∧ e.toList ≠ [] := by
    decide +kernel
  obtain ⟨hletters, hne⟩ := hascii entry h hphrase
  refine ⟨fun c hc => ?_, hne⟩
  obtain ⟨hc, halpha⟩ := Bool.and_eq_true_iff.mp (List.all_eq_true.mp hletters c hc)
  rw [tt.isLetter_ascii c (of_decide_eq_true hc)]
  exact halpha

/-- An entry of one word stands alone where it occurs exactly when this holds of the words. -/
theorem delimited_of_infix_iff {entry : String} (h : entry ∈ bullishWords ++ bearishWords)
    (hphrase : entry ∉ phrases) (textLower : List Char) :
    (entry.toList <:+: textLower → Words.Delimited tt.isLetter entry.toList textLower) ↔
      ∀ word ∈ Words.words tt.isLetter textLower, entry.toList <:+: word →
        entry.toList ∈ Words.words tt.isLetter textLower := by
  obtain ⟨hletters, hne⟩ := letters_of_not_phrase tt h hphrase
  rw [Words.infix_iff_exists_word hletters hne, ← Words.mem_words_iff hletters hne]
  simp only [forall_exists_index, and_imp]

/-- **The hits are the entries that stand in the text as words exactly when no word contains an entry
that is not a word of the text**, and no phrase occurs only as a part of something longer. -/
theorem keyword_sentiment_iff (tt : TextTable) (text : String) :
    KeywordsOnly tt text ↔ WordsApart tt text := by
  have hphrases : ∀ entry ∈ phrases, entry ∈ bullishWords ++ bearishWords := by decide
  have hhits : KeywordsOnly tt text ↔ ∀ entry ∈ bullishWords ++ bearishWords,
      entry.toList <:+: tt.lower text.toList →
        Words.Delimited tt.isLetter entry.toList (tt.lower text.toList) := by
    simp only [List.forall_mem_append, ← hits_eq_wordHits_iff]
    constructor
    · exact fun h => ⟨h.bullish, h.bearish⟩
    · rintro ⟨hbull, hbear⟩
      exact ⟨hbull, hbear, by rw [keywordSentiment, hbull, hbear]⟩
  rw [hhits]
  constructor
  · intro h
    exact ⟨fun entry hentry hp => (delimited_of_infix_iff hentry hp _).mp (h entry hentry),
      fun entry hp => h entry (hphrases entry hp)⟩
  · rintro ⟨hword, hphrase⟩ entry hentry
    by_cases hp : entry ∈ phrases
    · exact hphrase entry hp
    · exact (delimited_of_infix_iff hentry hp _).mpr (hword entry hentry hp)

/-- A table for texts in ASCII. -/
def asciiText : TextTable := ⟨List.map Char.toLower, fun _ _ => rfl, Char.isAlpha, fun _ _ => rfl⟩

/-- `again` contains `gain`: a text without a single entry scores 1, as no text without one should.
`gains` contains `gain`, too, and gives two hits. -/
theorem again_is_bullish :
    keywordSentiment asciiText "Fed holds rates again" = 1 ∧
      (∀ entry ∈ bullishWords ++ bearishWords, ¬ Words.Delimited asciiText.isLetter entry.toList
        (asciiText.lower "Fed holds rates again".toList)) ∧
      keywordSentiment asciiText "Fed holds rates" = 0 ∧
      hits bullishWords (asciiText.lower "Stocks post gains".toList) = 2 ∧
      asciiText.wordHits bullishWords (asciiText.lower "Stocks post gains".toList) = 1 := by
  decide +kernel

end MarketKill3r
