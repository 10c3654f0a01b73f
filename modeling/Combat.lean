import Combat.Arithmetic
import Combat.Binary64.Decimal
import Combat.Seat
import Combat.Stash
import Combat.TagCache
import Combat.Text.Blank
import Combat.Value.Record
import Combat.WeightedTable
import Combat.Stat.Source
import Combat.Formula
import Combat.Effect.Codec
import Combat.Aura.Declaration
import Combat.Aura.Slots
import Combat.Targeting
import Combat.Outcome.Codec
import Combat.Resolution.AuraPass
import Combat.Value.Json
import Combat.Mastery.Practice
import Combat.Content.Declaration
import Combat.Mastery.Declaration
import Combat.Value.Toml
import Combat.Bundled.Content
import Combat.Bundled.Mastery
import Combat.Bundled.Roster
import Combat.Skirmish.Report
import Combat.Config
import Combat.Main
import Combat.Proofs.Action
import Combat.Proofs.Resolution.Frame
import Combat.Proofs.Resolution.Blind
import Combat.Proofs.Resolution.Account
import Combat.Proofs.Resolution.Pass
import Combat.Proofs.Resolution.Discipline
import Combat.Proofs.DerivedStats
import Combat.Proofs.Limits.Tracker
import Combat.Proofs.Limits.History
import Combat.Proofs.Eviction
import Combat.Proofs.Mastery.Lookup
import Combat.Proofs.Totals
import Combat.Proofs.Mastery.Standing
import Combat.Proofs.Aura.Contributions
import Combat.Proofs.Aura.Places
import Combat.Proofs.Aura.Pools
import Combat.Proofs.Aura.Reapplication
import Combat.Proofs.Aura.Shares
import Combat.Proofs.Vitals
import Combat.Proofs.Content
import Combat.Proofs.Resolution.Kinds
import Combat.Proofs.Sides.Characters
import Combat.Proofs.Sides.Targets
import Combat.Proofs.Sides.Handlers
import Combat.Proofs.Sides.Passes
import Combat.Proofs.Keeping
import Combat.Proofs.Bounds
import Combat.Proofs.Resolution.Bounds
import Combat.Proofs.Resolution.Deaths
import Combat.Proofs.Skirmish.Course
import Combat.Proofs.Skirmish.Loot
import Combat.Proofs.Resolution.Unhandled
import Combat.Proofs.Binary64
import Combat.Proofs.Resolution.AuraDamage
import Combat.Proofs.Aggregation
import Combat.Proofs.Targeting
import Combat.Proofs.Harm
import Combat.Proofs.Resolution.Stacks
import Combat.Proofs.Resolution.Order
import Combat.Proofs.Resolution.Draws
import Combat.Proofs.Resolution.Triggers
import Combat.Proofs.Resolution.Removal
import Combat.Proofs.Stash
import Combat.Proofs.WeightedTable
import Combat.Proofs.Mastery.Sorting
import Combat.Proofs.Acceptance
import Combat.Proofs.Mastery.Loading
import Combat.Proofs.Mastery.Practice
import Combat.Proofs.Effect.Codec
import Combat.Proofs.Mastery.Conversion
