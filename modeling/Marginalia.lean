import Marginalia.Main
import Marginalia.Paint
import Marginalia.Session.Controller
import Marginalia.Proofs.ColorLiterals
import Marginalia.Proofs.CarvedText
import Marginalia.Proofs.BaseSpans
import Marginalia.Proofs.FirstPlace
import Marginalia.Proofs.LexicalGrammar
import Marginalia.Proofs.LexicalPartition
import Marginalia.Proofs.BracketMatching
import Marginalia.Proofs.BracketAnswers
import Marginalia.Proofs.BracketPairs
import Marginalia.Proofs.SpreadFormats
import Marginalia.Proofs.LinePlaces
import Marginalia.Proofs.KnownStyles
import Marginalia.Proofs.PaintedSpans
import Marginalia.Proofs.AuthorIds
import Marginalia.Proofs.SwatchTable
import Marginalia.Proofs.AnnotatorSpans
import Marginalia.Proofs.HitSpans
import Marginalia.Proofs.ComposedSpans
import Marginalia.Proofs.FamilyIds
import Marginalia.Proofs.FamilyEvents
import Marginalia.Proofs.SessionFrames
import Marginalia.Proofs.SwatchedSessions
import Marginalia.Proofs.SessionCoherence
import Marginalia.Proofs.BaseCache
import Marginalia.Proofs.SessionHighlight
import Marginalia.Proofs.PlacedSpans
import Marginalia.Proofs.DeskCache
import Marginalia.Proofs.ColorlessSheets
import Marginalia.Proofs.FrozenTickets
import Marginalia.Proofs.ControllerNotices
import Marginalia.Proofs.KeptRecords
import Marginalia.Proofs.AuthorTints
import Marginalia.Proofs.StyleConflicts
import Marginalia.Proofs.AnsweredEvents
import Marginalia.Proofs.AttributionStyles
import Marginalia.Proofs.RefusedEvents
import Marginalia.Proofs.StalePasses
import Marginalia.Proofs.LiteralDigits
import Marginalia.Proofs.SwatchVersions
import Marginalia.Proofs.StandardViewers
import Marginalia.Proofs.SelectedMatches
import Marginalia.Proofs.FamilyBlocks
import Marginalia.Proofs.RegistryCalls
import Marginalia.Proofs.PermanentStyles
import Marginalia.Proofs.BlameEntries
import Marginalia.Proofs.BlameRuns
import Marginalia.Proofs.ListedEntries
import Marginalia.Proofs.CommitData
import Marginalia.Proofs.IndexedListings
import Marginalia.Proofs.LineNumbers
import Marginalia.Proofs.WrittenNumerals
import Marginalia.Proofs.PrintedListings
import Marginalia.Proofs.KeptFormats
import Marginalia.Proofs.CurrentMatches
import Marginalia.Proofs.ReservedAuthors
import Marginalia.Proofs.LoadedRecords
import Marginalia.Proofs.ReadableListings
import Marginalia.Proofs.AttributedLines
import Marginalia.Proofs.KeywordRuns
import Marginalia.Proofs.RegisteredSwatches
import Marginalia.Proofs.StringEnds
import Marginalia.Proofs.JoinedTexts
import Marginalia.Proofs.RegionReaders
import Marginalia.Proofs.PythonRegions
import Marginalia.Proofs.TemplateLiterals
import Marginalia.Proofs.RecordedLines
import Marginalia.Proofs.Toggles
import Marginalia.Proofs.FocusedLines
import Marginalia.Proofs.PaintedAuthors
import Marginalia.Proofs.RedatedRecords
import Marginalia.Proofs.HiddenAges
import Marginalia.Proofs.LineTerminators
import Marginalia.Proofs.SelectionTurns
import Marginalia.Proofs.RecentFiles
import Marginalia.Proofs.PartialSettings
import Marginalia.Proofs.SpelledColors
import Marginalia.Proofs.AgeThresholds
import Marginalia.Proofs.BracketCounting
