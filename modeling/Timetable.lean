import Timetable.Main
import Timetable.Proofs.DayNumber
import Timetable.Proofs.Nearest
import Timetable.Proofs.Timeline
import Timetable.Proofs.DayScan
import Timetable.Proofs.SearchWindow
import Timetable.Proofs.Grammar
import Timetable.Proofs.ReaderLanguage
import Timetable.Proofs.Language
import Timetable.Proofs.RoundTrip
import Timetable.Proofs.Coherence
import Timetable.Proofs.Walk
import Timetable.Proofs.YearsAlike
import Timetable.Proofs.GregorianCycle
import Timetable.Proofs.Written
import Timetable.Proofs.TokenPlaces
import Timetable.Proofs.Layout
import Timetable.Proofs.GroupUnion
import Timetable.Proofs.DateProgression
import Timetable.Proofs.InstantRoundTrip
import Timetable.Proofs.CommandChain
import Timetable.Proofs.MonthProgression
import Timetable.Proofs.YearlyWindow
import Timetable.Proofs.RuleChange
import Timetable.Proofs.Recurrence
import Timetable.Proofs.Faults
import Timetable.Proofs.Shape
import Timetable.Proofs.KeepingToShape
import Timetable.Proofs.FirstMisfit
import Timetable.Proofs.ErrorPlace
import Timetable.Proofs.EmptySchedule
import Timetable.Proofs.TextParts
import Timetable.Proofs.LooseExpressions
import Timetable.Proofs.ErrorLayout
import Timetable.Proofs.QuotedText
import Timetable.Proofs.ClockOrder
import Timetable.Proofs.DateOrder
