import PatternBuilder.Builder.Description
import PatternBuilder.Builder.Vocabulary
import PatternBuilder.Pattern
import PatternBuilder.Proofs.AbsorbedGroups
import PatternBuilder.Proofs.AppendedClauses
import PatternBuilder.Proofs.CaptureNumbers
import PatternBuilder.Proofs.DoubledGroups
import PatternBuilder.Proofs.FilledTrees
import PatternBuilder.Proofs.FoldedCoverage
import PatternBuilder.Proofs.FoldedMatching
import PatternBuilder.Proofs.GroupMarks
import PatternBuilder.Proofs.Histories
import PatternBuilder.Proofs.MixedCaseRanges
import PatternBuilder.Proofs.OuterFlags
import PatternBuilder.Proofs.OutlineOfTrees
import PatternBuilder.Proofs.OverlappingValues
import PatternBuilder.Proofs.QuantifiedClauses
import PatternBuilder.Proofs.QuantifierBounds
import PatternBuilder.Proofs.ReadingBack
import PatternBuilder.Proofs.RunMembers
import PatternBuilder.Proofs.Scoping
import PatternBuilder.Proofs.SpokenPatterns
import PatternBuilder.Proofs.StrayClauses
import PatternBuilder.Proofs.TextRoundTrip
import PatternBuilder.Proofs.TrailingQuantifier
import PatternBuilder.Proofs.ValueTexts
import PatternBuilder.Proofs.VariantSources
import PatternBuilder.Proofs.Wildcard
import PatternBuilder.Proofs.WholeNumbers
