import MetricLayer.Schema.Basic
import MetricLayer.Vocabulary.Dictionary

/-!
# A sample model: gaming

A small star schema around the daily activity of players, and the vocabulary that analysts use for
it. It serves when no definitions are given. The table of affiliates is related to nothing, so some
requests over it have no answer.
-/

namespace MetricLayer.Gaming

/-- A column that identifies rows. -/
def key (name : String) : Column :=
  { name, type := .integer, nullable := false, primaryKey := true }

/-- A column that refers to the rows of another table. -/
def reference (name : String) : Column := { name, type := .integer, foreignKey := true }

/-- Any other column. -/
def plain (name : String) (type : DataType) : Column := { name, type }

/-- The tables of the model. -/
def tables : List Table :=
  [{ name := "GameActivity", schema := some "dbo", kind := .fact
     columns := [key "ActivityID", reference "PlayerID", reference "GameID",
       plain "ActivityDate" .date, plain "Device" .string, plain "Bets" .decimal,
       plain "Wins" .decimal, plain "GGR" .decimal, plain "NetRevenue" .decimal]
     indexes := [⟨"IX_GameActivity_ActivityDate", ["ActivityDate", "PlayerID"]⟩,
       ⟨"IX_GameActivity_Device", ["Device"]⟩] },
   { name := "Transactions", schema := some "dbo", kind := .fact
     columns := [key "TransactionID", reference "PlayerID", plain "TransactionDate" .timestamp,
       plain "PaymentMethod" .string, plain "DepositAmount" .decimal,
       plain "WithdrawalAmount" .decimal]
     indexes := [⟨"IX_Transactions_TransactionDate", ["TransactionDate"]⟩] },
   { name := "Bonuses", schema := some "dbo", kind := .fact
     columns := [key "BonusID", reference "PlayerID", plain "AwardedDate" .date,
       plain "BonusType" .string, plain "BonusAmount" .decimal] },
   { name := "Player", schema := some "dbo", kind := .dimension
     columns := [key "PlayerID", plain "Country" .string, plain "VIPLevel" .integer,
       plain "RegistrationDate" .date]
     indexes := [⟨"IX_Player_Country", ["Country"]⟩] },
   { name := "Game", schema := some "dbo", kind := .dimension
     columns := [key "GameID", plain "GameName" .string, plain "GameType" .string,
       plain "Provider" .string] },
   { name := "Affiliates", schema := some "marketing"
     columns := [key "AffiliateID", plain "AffiliateName" .string, plain "Channel" .string] }]

/-- Daily revenue by the player's country, stored. -/
def dailyRevenue : View :=
  { name := "mv_DailyRevenueByCountry", schema := some "dbo"
    columns := [⟨"ActivityDate", some ⟨"GameActivity", "ActivityDate"⟩⟩,
      ⟨"Country", some ⟨"Player", "Country"⟩⟩, ⟨"TotalGGR", some ⟨"GameActivity", "GGR"⟩⟩,
      ⟨"TotalNetRevenue", some ⟨"GameActivity", "NetRevenue"⟩⟩,
      ⟨"TotalBets", some ⟨"GameActivity", "Bets"⟩⟩, ⟨"TotalWins", some ⟨"GameActivity", "Wins"⟩⟩]
    materialized := true
    sourceTables := ["GameActivity", "Player"]
    groupBy := [⟨"GameActivity", "ActivityDate"⟩, ⟨"Player", "Country"⟩]
    refresh := some "daily at 02:00 UTC" }

/-- Many rows refer to one row of another table by a column that has the same name there. -/
def link (table column other : String) : Relationship := ⟨table, column, other, column, .manyToOne⟩

/-- The definition of the schema. -/
def schemaDefinition : SchemaDefinition :=
  { tables := tables
    views := [dailyRevenue]
    relationships := [link "GameActivity" "PlayerID" "Player", link "GameActivity" "GameID" "Game",
      link "Transactions" "PlayerID" "Player", link "Bonuses" "PlayerID" "Player"] }

/-- The metrics of the vocabulary. -/
def metrics : List MetricDefinition :=
  [{ name := "GGR", description := "Gross gaming revenue: bets minus wins"
     field := some ⟨"GameActivity", "GGR"⟩, category := some "revenue"
     synonyms := ["revenue", "gross gaming revenue", "gross revenue"] },
   { name := "NetRevenue", description := "GGR after bonuses and taxes"
     field := some ⟨"GameActivity", "NetRevenue"⟩, category := some "revenue"
     synonyms := ["ngr", "net gaming revenue"] },
   { name := "Bets", field := some ⟨"GameActivity", "Bets"⟩, category := some "activity"
     synonyms := ["stakes", "turnover", "wagers", "handle"] },
   { name := "Wins", field := some ⟨"GameActivity", "Wins"⟩, category := some "activity"
     synonyms := ["payouts", "winnings"] },
   { name := "Hold", description := "Share of stakes kept by the house"
     category := some "revenue", synonyms := ["margin", "hold percentage"]
     formula := some "[GGR] / [Bets]" },
   { name := "Active Players", field := some ⟨"GameActivity", "PlayerID"⟩
     aggregation := .countDistinct, type := .integer, category := some "players"
     synonyms := ["players", "active users", "unique players"] },
   { name := "Deposits", field := some ⟨"Transactions", "DepositAmount"⟩
     category := some "payments", synonyms := ["deposit amount", "deposit volume"] },
   { name := "Withdrawals", field := some ⟨"Transactions", "WithdrawalAmount"⟩
     category := some "payments", synonyms := ["cashouts", "withdrawal amount"] },
   { name := "Bonus Cost", field := some ⟨"Bonuses", "BonusAmount"⟩, category := some "marketing"
     synonyms := ["bonuses", "bonus amount", "promotions"] }]

/-- The dimensions of the vocabulary. -/
def dimensions : List DimensionDefinition :=
  [{ name := "Country", field := ⟨"Player", "Country"⟩, category := some "player"
     synonyms := ["market", "nation"] },
   { name := "VIP Level", field := ⟨"Player", "VIPLevel"⟩, category := some "player"
     synonyms := ["vip", "vip tier", "loyalty tier"] },
   { name := "Game", field := ⟨"Game", "GameName"⟩, category := some "game"
     synonyms := ["game name", "title"] },
   { name := "Game Type", field := ⟨"Game", "GameType"⟩, category := some "game"
     synonyms := ["game category", "vertical"] },
   { name := "Provider", field := ⟨"Game", "Provider"⟩, category := some "game"
     synonyms := ["supplier", "studio"] },
   { name := "Device", field := ⟨"GameActivity", "Device"⟩, synonyms := ["platform"] },
   { name := "Payment Method", field := ⟨"Transactions", "PaymentMethod"⟩
     category := some "payments", synonyms := ["payment type"] },
   { name := "Bonus Type", field := ⟨"Bonuses", "BonusType"⟩, category := some "marketing" },
   { name := "Affiliate", field := ⟨"Affiliates", "AffiliateName"⟩, category := some "marketing"
     synonyms := ["partner", "affiliate name"] },
   { name := "Date", field := ⟨"GameActivity", "ActivityDate"⟩, isDate := true
     synonyms := ["day", "daily"] },
   { name := "Month", field := ⟨"GameActivity", "ActivityDate"⟩, grain := some .month
     isDate := true, synonyms := ["monthly"] },
   { name := "Year", field := ⟨"GameActivity", "ActivityDate"⟩, grain := some .year
     isDate := true, synonyms := ["yearly", "annual"] }]

/-- The definition of the vocabulary. -/
def dictionaryDefinition : DictionaryDefinition := ⟨metrics, dimensions⟩

end MetricLayer.Gaming
