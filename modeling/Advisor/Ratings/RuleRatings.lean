import Advisor.Acks.Views
import Advisor.Python.Grouping
import Advisor.Python.Json
import Advisor.Relational.LastWritten
import Advisor.Relational.Table
import Advisor.Tasks.Model
import Mathlib.Data.List.Sort
import Mathlib.Data.Set.Card

/-! Ratings of rules: what each view shows of them, over a history of what users post and of what becomes of the rules. -/

namespace Advisor.Ratings

open Acks Python Relational
open Tasks (overwrite get?_overwrite mem_overwrite)

inductive Rating where
  | dislike
  | neutral
  | like
  deriving DecidableEq

def Rating.value : Rating → Int
  | dislike => -1
  | neutral => 0
  | like => 1

structure RuleRating where
  rule : String
  ratedBy : String
  account : Option String
  orgId : String
  rating : Rating
  deriving DecidableEq

def RuleRating.key (row : RuleRating) : String × String := (row.rule, row.ratedBy)

/-- The order that the database has for texts; no two different texts are equal in it. -/
structure Collation where
  le : String → String → Bool
  total : ∀ a b, le a b || le b a
  trans : ∀ a b c, le a b → le b c → le a c
  antisymm : ∀ a b, le a b → le b a → a = b

namespace Collation

variable (collation : Collation)

def Before (a b : String) : Prop := collation.le a b ∧ a ≠ b

/-- `Meta.ordering`. -/
def ordered (a b : RuleRating) : Bool :=
  if a.rule = b.rule then collation.le a.ratedBy b.ratedBy else collation.le a.rule b.rule

theorem ordered_total (a b : RuleRating) : collation.ordered a b ∨ collation.ordered b a := by
  unfold ordered
  by_cases hrule : a.rule = b.rule
  · rw [if_pos hrule, if_pos hrule.symm]
    exact Bool.or_eq_true_iff.mp (collation.total a.ratedBy b.ratedBy)
  · rw [if_neg hrule, if_neg (Ne.symm hrule)]
    exact Bool.or_eq_true_iff.mp (collation.total a.rule b.rule)

theorem ordered_trans (a b c : RuleRating) (hab : collation.ordered a b) (hbc : collation.ordered b c) :
    collation.ordered a c := by
  unfold ordered at hab hbc ⊢
  by_cases h : a.rule = b.rule
  · rw [if_pos h] at hab
    by_cases h' : b.rule = c.rule
    · rw [if_pos h'] at hbc
      rw [if_pos (h.trans h')]
      exact collation.trans _ _ _ hab hbc
    · rw [if_neg h'] at hbc
      rwa [h, if_neg h']
  · rw [if_neg h] at hab
    by_cases h' : b.rule = c.rule
    · rwa [← h', if_neg h]
    · rw [if_neg h'] at hbc
      by_cases h'' : a.rule = c.rule
      · exact absurd (collation.antisymm _ _ hab (h'' ▸ hbc)) h
      · rw [if_neg h'']
        exact collation.trans _ _ _ hab hbc

end Collation

def hasRule (db : Importer.Database) (ruleId : String) : Bool := db.rules.any fun rule => rule.ruleId = ruleId

structure World where
  db : Importer.Database
  ratings : Table RuleRating.key
  rated : ∀ row ∈ ratings, hasRule db row.rule

theorem hasRule_of_isActive {db : Importer.Database} {ruleId : String} (h : isActive db ruleId) :
    hasRule db ruleId := by
  obtain ⟨rule, hrule, hid⟩ := List.any_eq_true.mp h
  exact List.any_eq_true.mpr ⟨rule, hrule, (Bool.and_eq_true_iff.mp hid).1⟩

def textOf (lib : Json → String) : Json → String
  | .str s => s
  | .int i => toString i
  | .bool b => if b then "True" else "False"
  | .null => "None"
  | value => lib value

def Rating.ofText? (text : String) : Option Rating :=
  [dislike, neutral, like].find? fun rating => toString rating.value = text

/-- What `RuleRatingSerializer` reads of a request, before the rule is looked up. -/
def readRating (lib : Json → String) : Json → Option (String × Rating)
  | .dict items => do
    let rule ← items.lookup "rule"
    let rating ← items.lookup "rating"
    let rating ← Rating.ofText? (textOf lib rating)
    if rule = .null ∨ rule = .str "" then none else some (textOf lib rule, rating)
  | _ => none

def storable (row : RuleRating) : Bool := row.account.all (fits 10) && fits 50 row.orgId && fits 255 row.ratedBy

namespace World

/-- `update_or_create` by the user and the rule. -/
def rate (w : World) (row : RuleRating) (h : isActive w.db row.rule) : World where
  db := w.db
  ratings := w.ratings.upsert (overwrite RuleRating.key) row
  rated := by
    intro stored hstored
    rcases mem_overwrite.mp hstored with heq | hold
    · exact heq ▸ hasRule_of_isActive h
    · exact w.rated stored hold.1

def create (lib : Json → String) (request : AckRequest) (data : Json) (w : World) : Except Failure (World × Bool) :=
  match readRating lib data with
  | none => .error .badRequest
  | some (ruleId, rating) =>
    if h : isActive w.db ruleId then
      let row : RuleRating := ⟨ruleId, request.username, request.account, request.orgId, rating⟩
      if storable row then .ok (w.rate row h, (w.ratings.get? row.key).isNone) else .error .database
    else .error .badRequest

/-- Whatever else is committed; the ratings of a rule that is deleted go with it. -/
def commit (w : World) (db : Importer.Database) : World where
  db
  ratings := w.ratings.deleteWhere fun row => !hasRule db row.rule
  rated := by
    intro row hrow
    simpa using (Table.mem_deleteWhere.mp hrow).2

variable (collation : Collation) (w : World)

def retrieve (username ruleId : String) : Except Failure (String × Rating) :=
  match w.ratings.rows.filter fun row => row.ratedBy = username && row.rule = ruleId with
  | [] => .error .notFound
  | [row] => .ok (row.rule, row.rating)
  | _ => .error .database

def ordered (rows : List RuleRating) : List RuleRating := rows.insertionSort fun a b => collation.ordered a b

def list (username : String) : List (String × Rating) :=
  (ordered collation (w.ratings.rows.filter fun row => row.ratedBy = username)).map fun row => (row.rule, row.rating)

def allRatings : List RuleRating := ordered collation w.ratings.rows

/-- The `rating` of a rule in `RuleManager.for_account`: a subquery that gives one row or none. -/
def ratingOf (username ruleId : String) : Except Failure Int :=
  match w.ratings.rows.filter fun row => row.rule = ruleId && row.ratedBy = username with
  | [] => .ok 0
  | [row] => .ok row.rating.value
  | _ => .error .database

end World

structure RatingStats where
  rule : String
  totalRatings : Nat
  totalPositive : Nat
  totalNegative : Nat
  deriving DecidableEq

def World.stats (collation : Collation) (w : World) : List RatingStats :=
  ((w.ratings.rows.map (·.rule)).dedup.insertionSort fun a b => collation.le a b).map fun rule =>
    let group := w.ratings.rows.filter fun row => row.rule = rule
    ⟨rule, group.length, (group.filter fun row => row.rating = .like).length,
      (group.filter fun row => row.rating = .dislike).length⟩

inductive Event where
  | post (request : AckRequest) (data : Json)
  | commit (db : Importer.Database)

/-- The state an event leaves; a post that is refused leaves it as it was. -/
def World.step (lib : Json → String) (w : World) : Event → World
  | .post request data =>
    match w.create lib request data with
    | .ok (w', _) => w'
    | .error _ => w
  | .commit db => w.commit db

def World.run (lib : Json → String) (w : World) (events : List Event) : World := events.foldl (World.step lib) w

def World.unrated (db : Importer.Database) : World where
  db
  ratings := .empty
  rated := by
    intro row hrow
    cases hrow

def accepted (lib : Json → String) (db : Importer.Database) (request : AckRequest) (data : Json) : Option RuleRating := do
  let (ruleId, rating) ← readRating lib data
  let row : RuleRating := ⟨ruleId, request.username, request.account, request.orgId, rating⟩
  if isActive db ruleId && storable row then some row else none

/-- What an event says about the rating of a rule by a user: a rating, that there is none, or nothing. -/
def writes (lib : Json → String) (username ruleId : String) :
    Importer.Database × Event → Option (Option RuleRating)
  | (db, .post request data) =>
    ((accepted lib db request data).filter fun row => row.key = (ruleId, username)).map some
  | (_, .commit db) => if hasRule db ruleId then none else some none

def history (db : Importer.Database) : List Event → List (Importer.Database × Event)
  | [] => []
  | .post request data :: events => (db, .post request data) :: history db events
  | .commit db' :: events => (db, .commit db') :: history db' events

/-- The rating that stands: the last that was accepted from the user, if the rule was not deleted since. -/
def standing (lib : Json → String) (db : Importer.Database) (events : List Event) (username ruleId : String) :
    Option RuleRating :=
  lastWritten (writes lib username ruleId) none (history db events)

/-- The views show the ratings that `given` has, and no others. -/
structure World.Shows (lib : Json → String) (collation : Collation) (w : World)
    (given : String → String → Option RuleRating) : Prop where
  created : ∀ request data row, accepted lib w.db request data = some row →
    ∃ w', w.create lib request data = .ok (w', (given row.ratedBy row.rule).isNone)
  refused : ∀ request data, accepted lib w.db request data = none → ∃ e, w.create lib request data = .error e
  retrieve : ∀ username ruleId, w.retrieve username ruleId =
    match given username ruleId with
    | some row => .ok (ruleId, row.rating)
    | none => .error .notFound
  listed : ∀ username ruleId rating, (ruleId, rating) ∈ w.list collation username ↔
    ∃ row, given username ruleId = some row ∧ row.rating = rating
  sorted : ∀ username, ((w.list collation username).map Prod.fst).Pairwise collation.Before
  all : ∀ row, row ∈ w.allRatings collation ↔ given row.ratedBy row.rule = some row
  allSorted : (w.allRatings collation).Pairwise fun a b =>
    collation.Before a.rule b.rule ∨ a.rule = b.rule ∧ collation.Before a.ratedBy b.ratedBy
  rating : ∀ username ruleId, w.ratingOf username ruleId =
    .ok (match given username ruleId with | some row => row.rating.value | none => 0)
  stats : ∀ stats, stats ∈ w.stats collation ↔ (∃ username, (given username stats.rule).isSome) ∧
    stats.totalRatings = {username | (given username stats.rule).isSome}.ncard ∧
    stats.totalPositive = {username | (given username stats.rule).any fun row => row.rating = .like}.ncard ∧
    stats.totalNegative = {username | (given username stats.rule).any fun row => row.rating = .dislike}.ncard
  statsSorted : ((w.stats collation).map (·.rule)).Pairwise collation.Before

theorem create_eq (lib : Json → String) (request : AckRequest) (data : Json) (w : World) :
    (∃ row h, accepted lib w.db request data = some row ∧
      w.create lib request data = .ok (w.rate row h, (w.ratings.get? row.key).isNone)) ∨
    ∃ e, accepted lib w.db request data = none ∧ w.create lib request data = .error e := by
  unfold accepted World.create
  cases hread : readRating lib data with
  | none => exact Or.inr ⟨_, rfl, rfl⟩
  | some read =>
    obtain ⟨ruleId, rating⟩ := read
    dsimp only [Option.bind_eq_bind, Option.bind_some]
    by_cases h : isActive w.db ruleId
    · rw [dif_pos h]
      by_cases hstorable : storable ⟨ruleId, request.username, request.account, request.orgId, rating⟩
      · rw [if_pos hstorable, if_pos (by simp [h, hstorable])]
        exact Or.inl ⟨_, h, rfl, rfl⟩
      · rw [if_neg hstorable, if_neg (by simp [hstorable])]
        exact Or.inr ⟨_, rfl, rfl⟩
    · rw [dif_neg h, if_neg (by simp [h])]
      exact Or.inr ⟨_, rfl, rfl⟩

theorem step_get? (lib : Json → String) (w : World) (event : Event) (username ruleId : String) :
    (w.step lib event).ratings.get? (ruleId, username) =
      (writes lib username ruleId (w.db, event)).getD (w.ratings.get? (ruleId, username)) := by
  cases event with
  | post request data =>
    rcases create_eq lib request data w with ⟨row, h, hrow, hcreate⟩ | ⟨e, hrow, hcreate⟩
    · simp only [World.step, hcreate, writes, hrow, World.rate, get?_overwrite]
      by_cases hkey : row.key = (ruleId, username)
      · simp [hkey, Option.filter]
      · simp [hkey, Option.filter]
    · simp only [World.step, hcreate, writes, hrow]
      rfl
  | commit db =>
    simp only [World.step, World.commit, writes, Table.get?_deleteWhere]
    cases hget : w.ratings.get? (ruleId, username) with
    | none =>
      by_cases hrule : hasRule db ruleId
      · simp [hrule]
      · simp [hrule]
    | some row =>
      have hid : row.rule = ruleId := congrArg Prod.fst (Table.get?_key hget)
      by_cases hrule : hasRule db ruleId
      · simp [hid, hrule]
      · simp [hid, hrule]

theorem step_db (lib : Json → String) (w : World) (event : Event) (events : List Event) :
    history w.db (event :: events) = (w.db, event) :: history (w.step lib event).db events := by
  cases event with
  | post request data =>
    rcases create_eq lib request data w with ⟨row, h, -, hcreate⟩ | ⟨e, -, hcreate⟩
    · simp only [history, World.step, hcreate]
      rfl
    · simp only [history, World.step, hcreate]
  | commit db => rfl

theorem run_get? (lib : Json → String) (w : World) (events : List Event) (username ruleId : String) :
    (w.run lib events).ratings.get? (ruleId, username) =
      lastWritten (writes lib username ruleId) (w.ratings.get? (ruleId, username)) (history w.db events) := by
  induction events generalizing w with
  | nil => rfl
  | cons event events ih =>
    have hnext := ih (w.step lib event)
    rw [step_get?] at hnext
    rw [step_db lib]
    exact hnext

section Views

variable {collation : Collation} {w : World} {given : String → String → Option RuleRating}

theorem ordered_pairwise {rows : List RuleRating} (hnodup : (rows.map RuleRating.key).Nodup) :
    (World.ordered collation rows).Pairwise fun a b =>
      collation.Before a.rule b.rule ∨ a.rule = b.rule ∧ collation.Before a.ratedBy b.ratedBy := by
  have : Std.Total fun a b => collation.ordered a b = true := ⟨collation.ordered_total⟩
  have : IsTrans RuleRating fun a b => collation.ordered a b = true := ⟨collation.ordered_trans⟩
  have hsorted : (World.ordered collation rows).Pairwise fun a b => collation.ordered a b = true :=
    List.pairwise_insertionSort _ rows
  have hkeys : (World.ordered collation rows).Pairwise fun a b => a.key ≠ b.key :=
    List.pairwise_map.mp (((List.perm_insertionSort _ rows).map _).nodup_iff.mpr hnodup)
  refine hsorted.imp₂ ?_ hkeys
  intro a b hle hne
  rw [Collation.ordered] at hle
  by_cases hrule : a.rule = b.rule
  · rw [if_pos hrule] at hle
    exact Or.inr ⟨hrule, hle, fun heq => hne (Prod.ext hrule heq)⟩
  · rw [if_neg hrule] at hle
    exact Or.inl ⟨hle, hrule⟩

theorem mem_ordered {rows : List RuleRating} {row : RuleRating} :
    row ∈ World.ordered collation rows ↔ row ∈ rows := List.mem_insertionSort _

theorem rows_of (w : World) (username ruleId : String) :
    (w.ratings.rows.filter fun row => row.rule = ruleId && row.ratedBy = username) =
      (w.ratings.get? (ruleId, username)).toList := by
  have hrows := filter_eq_toList_find? w.ratings.unique (ruleId, username)
  rw [Table.get?, ← hrows]
  apply List.filter_congr
  intro row _
  simp [RuleRating.key]

theorem mem_iff_given (h : ∀ username ruleId, w.ratings.get? (ruleId, username) = given username ruleId) {row : RuleRating} :
    row ∈ w.ratings.rows ↔ given row.ratedBy row.rule = some row := by
  rw [← h]
  exact Table.mem_iff_get?

theorem of_given (h : ∀ username ruleId, w.ratings.get? (ruleId, username) = given username ruleId)
    {username ruleId : String} {row : RuleRating} (hgiven : given username ruleId = some row) :
    row ∈ w.ratings.rows ∧ row.rule = ruleId ∧ row.ratedBy = username := by
  have hget := Table.get?_eq_some.mp ((h username ruleId).trans hgiven)
  have hkey : row.key = (ruleId, username) := hget.2
  exact ⟨hget.1, congrArg Prod.fst hkey, congrArg Prod.snd hkey⟩

theorem length_group (h : ∀ username ruleId, w.ratings.get? (ruleId, username) = given username ruleId)
    (ruleId : String) (p : RuleRating → Bool) :
    ((w.ratings.rows.filter fun row => row.rule = ruleId).filter p).length =
      {username | (given username ruleId).any p}.ncard := by
  let rows := (w.ratings.rows.filter fun row => row.rule = ruleId).filter p
  have hmem : ∀ row, row ∈ rows ↔ row ∈ w.ratings.rows ∧ row.rule = ruleId ∧ p row := by
    intro row
    simp [rows, and_assoc, and_comm]
  have hnodup : (rows.map (·.ratedBy)).Nodup := by
    have hrows : rows.Nodup := ((List.Nodup.of_map _ w.ratings.unique).filter _).filter _
    apply hrows.map_on
    intro a ha b hb heq
    have ha' := (hmem a).mp ha
    have hb' := (hmem b).mp hb
    exact w.ratings.key_injOn ha'.1 hb'.1 (Prod.ext (ha'.2.1.trans hb'.2.1.symm) heq)
  have hset : {username | (given username ruleId).any p} = ((rows.map (·.ratedBy)).toFinset : Set String) := by
    ext username
    rw [Set.mem_ofPred_eq, List.coe_toFinset, Set.mem_ofPred_eq, List.mem_map]
    constructor
    · intro hany
      obtain ⟨row, hgiven, hp⟩ := (Option.any_eq_true _ _).mp hany
      obtain ⟨hin, hrule, huser⟩ := of_given h hgiven
      exact ⟨row, (hmem row).mpr ⟨hin, hrule, hp⟩, huser⟩
    · intro hex
      obtain ⟨row, hrow, rfl⟩ := hex
      obtain ⟨hin, rfl, hp⟩ := (hmem row).mp hrow
      rw [(mem_iff_given h).mp hin]
      exact hp
  rw [hset, Set.ncard_coe_finset, List.toFinset_card_of_nodup hnodup, List.length_map]

theorem retrieve_eq (h : ∀ username ruleId, w.ratings.get? (ruleId, username) = given username ruleId)
    (username ruleId : String) : w.retrieve username ruleId =
      match given username ruleId with
      | some row => .ok (ruleId, row.rating)
      | none => .error .notFound := by
  have hrows : (w.ratings.rows.filter fun row => row.ratedBy = username && row.rule = ruleId) =
      (given username ruleId).toList := by
    rw [← h, ← rows_of]
    simp only [Bool.and_comm]
  rw [World.retrieve, hrows]
  cases hgiven : given username ruleId with
  | none => rfl
  | some row =>
    have hrule : row.rule = ruleId := (of_given h hgiven).2.1
    simp only [Option.toList_some, hrule]

theorem mem_list (h : ∀ username ruleId, w.ratings.get? (ruleId, username) = given username ruleId)
    (username ruleId : String) (rating : Rating) :
    (ruleId, rating) ∈ w.list collation username ↔ ∃ row, given username ruleId = some row ∧ row.rating = rating := by
  simp only [World.list, List.mem_map, mem_ordered, List.mem_filter, decide_eq_true_eq]
  constructor
  · intro hex
    obtain ⟨row, ⟨hrow, rfl⟩, heq⟩ := hex
    obtain ⟨rfl, rfl⟩ := Prod.mk.inj heq
    exact ⟨row, (mem_iff_given h).mp hrow, rfl⟩
  · intro hex
    obtain ⟨row, hgiven, hrating⟩ := hex
    obtain ⟨hin, hrule, huser⟩ := of_given h hgiven
    exact ⟨row, ⟨hin, huser⟩, Prod.ext hrule hrating⟩

theorem list_pairwise (w : World) (username : String) :
    ((w.list collation username).map Prod.fst).Pairwise collation.Before := by
  have hnodup : ((w.ratings.rows.filter fun row => row.ratedBy = username).map RuleRating.key).Nodup :=
    w.ratings.unique.sublist (List.filter_sublist.map _)
  rw [World.list, List.map_map, List.pairwise_map]
  refine (ordered_pairwise hnodup).imp_of_mem ?_
  intro a b ha hb hbefore
  have hsame : a.ratedBy = b.ratedBy := by
    have ha' := List.mem_filter.mp (mem_ordered.mp ha)
    have hb' := List.mem_filter.mp (mem_ordered.mp hb)
    exact (of_decide_eq_true ha'.2).trans (of_decide_eq_true hb'.2).symm
  rcases hbefore with hrule | ⟨-, -, huser⟩
  · exact hrule
  · exact absurd hsame huser

theorem ratingOf_eq (h : ∀ username ruleId, w.ratings.get? (ruleId, username) = given username ruleId)
    (username ruleId : String) : w.ratingOf username ruleId =
      .ok (match given username ruleId with | some row => row.rating.value | none => 0) := by
  rw [World.ratingOf, rows_of, h]
  cases given username ruleId with
  | none => rfl
  | some row => rfl

theorem mem_stats (h : ∀ username ruleId, w.ratings.get? (ruleId, username) = given username ruleId)
    (stats : RatingStats) : stats ∈ w.stats collation ↔ (∃ username, (given username stats.rule).isSome) ∧
      stats.totalRatings = {username | (given username stats.rule).isSome}.ncard ∧
      stats.totalPositive = {username | (given username stats.rule).any fun row => row.rating = .like}.ncard ∧
      stats.totalNegative = {username | (given username stats.rule).any fun row => row.rating = .dislike}.ncard := by
  have htotal (ruleId : String) : (w.ratings.rows.filter fun row => row.rule = ruleId).length =
      {username | (given username ruleId).isSome}.ncard := by
    have hall := length_group h ruleId fun _ => true
    simpa only [List.filter_true, Option.any_true] using hall
  have hrated (ruleId : String) : (∃ row ∈ w.ratings.rows, row.rule = ruleId) ↔
      ∃ username, (given username ruleId).isSome := by
    constructor
    · intro hex
      obtain ⟨row, hrow, rfl⟩ := hex
      exact ⟨row.ratedBy, by rw [(mem_iff_given h).mp hrow]; rfl⟩
    · intro hex
      obtain ⟨username, hsome⟩ := hex
      obtain ⟨row, hgiven⟩ := Option.isSome_iff_exists.mp hsome
      obtain ⟨hin, hrule, -⟩ := of_given h hgiven
      exact ⟨row, hin, hrule⟩
  simp only [World.stats, List.mem_map, List.mem_insertionSort, List.mem_dedup]
  constructor
  · intro hex
    obtain ⟨ruleId, hrule, rfl⟩ := hex
    exact ⟨(hrated ruleId).mp hrule, htotal ruleId, length_group h ruleId _, length_group h ruleId _⟩
  · intro hall
    obtain ⟨hrule, hn, hpos, hneg⟩ := hall
    refine ⟨stats.rule, (hrated stats.rule).mpr hrule, ?_⟩
    rw [htotal, length_group h, length_group h, ← hn, ← hpos, ← hneg]

theorem stats_pairwise (w : World) : ((w.stats collation).map (·.rule)).Pairwise collation.Before := by
  let rules := (w.ratings.rows.map (·.rule)).dedup
  have : Std.Total fun a b => collation.le a b = true := ⟨fun a b => Bool.or_eq_true_iff.mp (collation.total a b)⟩
  have : IsTrans String fun a b => collation.le a b = true := ⟨collation.trans⟩
  have hmap : (w.stats collation).map (·.rule) = rules.insertionSort fun a b => collation.le a b := by
    rw [World.stats, List.map_map]
    exact List.map_id _
  have hnodup : (rules.insertionSort fun a b => collation.le a b).Nodup :=
    (List.perm_insertionSort _ _).nodup_iff.mpr (List.nodup_dedup _)
  rw [hmap]
  exact (List.pairwise_insertionSort _ rules).imp₂ (fun _ _ hle hne => ⟨hle, hne⟩) hnodup

theorem shows_of_get? (lib : Json → String)
    (h : ∀ username ruleId, w.ratings.get? (ruleId, username) = given username ruleId) :
    w.Shows lib collation given where
  created := by
    intro request data row haccepted
    rcases create_eq lib request data w with ⟨row', hactive, hrow, hcreate⟩ | ⟨e, hnone, -⟩
    · obtain rfl : row' = row := Option.some.inj (hrow.symm.trans haccepted)
      exact ⟨w.rate row' hactive, by rw [hcreate, RuleRating.key, h]⟩
    · rw [hnone] at haccepted
      cases haccepted
  refused := by
    intro request data hrefused
    rcases create_eq lib request data w with ⟨row, -, hrow, -⟩ | ⟨e, -, hcreate⟩
    · rw [hrefused] at hrow
      cases hrow
    · exact ⟨e, hcreate⟩
  retrieve := retrieve_eq h
  listed := mem_list h
  sorted := list_pairwise w
  all := by
    intro row
    rw [World.allRatings, mem_ordered]
    exact mem_iff_given h
  allSorted := ordered_pairwise w.ratings.unique
  rating := ratingOf_eq h
  stats := mem_stats h
  statsSorted := stats_pairwise w

end Views

/-- Whatever users post and whatever becomes of the rules, every view shows the ratings that stand. -/
theorem standing_shown (lib : Json → String) (collation : Collation) (db : Importer.Database) (events : List Event) :
    ((World.unrated db).run lib events).Shows lib collation (standing lib db events) := by
  apply shows_of_get?
  intro username ruleId
  exact run_get? lib (World.unrated db) events username ruleId

end Advisor.Ratings
