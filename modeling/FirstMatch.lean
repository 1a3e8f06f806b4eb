import FirstMatch.Proofs.Dataset.Progress
import FirstMatch.Proofs.Dataset.Summary
import FirstMatch.Proofs.DecisionList.Validation
import FirstMatch.Proofs.Evaluation.Comparison
import FirstMatch.Proofs.Filter.Coercion
import FirstMatch.Proofs.Filter.Satisfiability
import FirstMatch.Proofs.Filter.Thresholds
import FirstMatch.Proofs.Graph.Repeats
import FirstMatch.Proofs.Graph.Shape
import FirstMatch.Proofs.Graph.Sorting
import FirstMatch.Proofs.Ranking.Strength
import FirstMatch.Proofs.RuleText.Layout
import FirstMatch.Proofs.RuleText.Merging
import FirstMatch.Proofs.RuleText.Misspelling
import FirstMatch.Proofs.RuleText.Precedence
import FirstMatch.Proofs.Session.Acceptance
import FirstMatch.Proofs.Session.Visibility
import FirstMatch.Proofs.Value.Hashing
