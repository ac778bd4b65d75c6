import RoutePriority.Main
import RoutePriority.Profile.Store
import RoutePriority.Proofs.Rounding
import RoutePriority.Proofs.UnitInterval
import RoutePriority.Proofs.Compilations
import RoutePriority.Proofs.RegisteredHandles
import RoutePriority.Proofs.RecordWrites
import RoutePriority.Proofs.BoundedPriority
import RoutePriority.Proofs.ValidSpecifications
import RoutePriority.Proofs.Interpretation
import RoutePriority.Proofs.KindSafety
import RoutePriority.Proofs.MapHistories
import RoutePriority.Proofs.StoreRuns
import RoutePriority.Proofs.NumeralValues
import RoutePriority.Proofs.JsonSpelling
import RoutePriority.Proofs.JsonGrammar
import RoutePriority.Proofs.JsonValues
import RoutePriority.Proofs.HeldValues
import RoutePriority.Proofs.SpecificationDocuments
import RoutePriority.Proofs.JsonWriting
import RoutePriority.Proofs.ProfileRoundTrip
import RoutePriority.Proofs.StricterProfiles
import RoutePriority.Proofs.NamedValues
import RoutePriority.Proofs.ForeignHandles
import RoutePriority.Proofs.Catalogues
import RoutePriority.Proofs.AddedTables
import RoutePriority.Proofs.GrownRegistries
import RoutePriority.Proofs.ReversedEdges
import RoutePriority.Proofs.EqualSpecifications
import RoutePriority.Proofs.DecimalValues
import RoutePriority.Proofs.NumberTexts
import RoutePriority.Proofs.NumberWriting
import RoutePriority.Proofs.OlderRecords
import RoutePriority.Proofs.ValueTexts
import RoutePriority.Proofs.PatternTexts
import RoutePriority.Proofs.QuotedFactors
import RoutePriority.Proofs.EditedTables
import RoutePriority.Proofs.LiteralRules
import RoutePriority.Proofs.ThresholdLadders
import RoutePriority.Proofs.Assignments
import RoutePriority.Proofs.ProfileLookup
import RoutePriority.Proofs.CompilationLog
import RoutePriority.Proofs.DefinitionDocuments
