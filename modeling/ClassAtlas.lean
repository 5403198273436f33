import ClassAtlas.Text.Blank
import ClassAtlas.Text.DecimalDigit
import ClassAtlas.Text.WordChar
import ClassAtlas.Text.UpperCase
import ClassAtlas.Text.Printable
import ClassAtlas.Text.IdentifierChar
import ClassAtlas.Number.Shortest
import ClassAtlas.Number.Numeral
import ClassAtlas.Value.Json
import ClassAtlas.Diagram.Supply
import ClassAtlas.Diagram.Grid
import ClassAtlas.Document.Read
import ClassAtlas.Document.Write
import ClassAtlas.Diagram.Multiplicity
import ClassAtlas.Java.TypeText
import ClassAtlas.Java.TypeNames
import ClassAtlas.Java.OutputPath
import ClassAtlas.Files.Names
import ClassAtlas.Validation
import ClassAtlas.PlantUml
import ClassAtlas.Inference.Report
import ClassAtlas.Java.Unit
import ClassAtlas.Document.Texts
import ClassAtlas.Java.Token
import ClassAtlas.Java.Lexer
import ClassAtlas.Java.Tree
import ClassAtlas.Java.Declaration
import ClassAtlas.Java.Extract
import ClassAtlas.Assembly
import ClassAtlas.Settings.Check
import ClassAtlas.Files.Decoding
import ClassAtlas.Files.Node
import ClassAtlas.Files.Disk
import ClassAtlas.Files.Scan
import ClassAtlas.Files.Output
import ClassAtlas.Analysis
import ClassAtlas.Config.Scalar
import ClassAtlas.Config.Reader
import ClassAtlas.Settings.Layers
import ClassAtlas.Settings.Load
import ClassAtlas.Schema.Check
import ClassAtlas.Store.Database
import ClassAtlas.Editing.Session
import ClassAtlas.CommandLine.Run
import ClassAtlas.Main
import ClassAtlas.Java.Written
import ClassAtlas.Inference.Written
import ClassAtlas.Http.Service
import ClassAtlas.Proofs.Bookkeeping
import ClassAtlas.Proofs.Reachable
import ClassAtlas.Proofs.MultiplicityGrammar
import ClassAtlas.Proofs.InheritanceSearch
import ClassAtlas.Proofs.SoundDiagrams
import ClassAtlas.Proofs.SettledDocuments
import ClassAtlas.Proofs.DocumentRoundTrip
import ClassAtlas.Proofs.TextDocuments
import ClassAtlas.Proofs.InferredEdges
import ClassAtlas.Proofs.TableLaws
import ClassAtlas.Proofs.StoredRows
import ClassAtlas.Proofs.StoredDiagrams
import ClassAtlas.Proofs.UnitText
import ClassAtlas.Proofs.CommentedTrees
import ClassAtlas.Proofs.UnitSyntax
import ClassAtlas.Proofs.UnitMembers
import ClassAtlas.Proofs.NamesInTypes
import ClassAtlas.Proofs.HeaderClauses
import ClassAtlas.Proofs.UnitRoundTrip
import ClassAtlas.Proofs.ImportedMeanings
import ClassAtlas.Proofs.RenewedDiagrams
import ClassAtlas.Proofs.RenewedResults
import ClassAtlas.Proofs.SurvivingResults
import ClassAtlas.Proofs.BuiltDiagrams
import ClassAtlas.Proofs.SurvivingSupertypes
import ClassAtlas.Proofs.GridPlaces
import ClassAtlas.Proofs.AnalyzedDiagrams
import ClassAtlas.Proofs.Requests
import ClassAtlas.Proofs.ServedDiagrams
import ClassAtlas.Proofs.MergedEdges
import ClassAtlas.Proofs.RefusedMerges
import ClassAtlas.Proofs.BuiltDefects
import ClassAtlas.Proofs.AnsweredDocuments
import ClassAtlas.Proofs.FileTrees
import ClassAtlas.Proofs.Walks
import ClassAtlas.Proofs.WrittenFiles
import ClassAtlas.Proofs.WrittenUnits
import ClassAtlas.Proofs.PathNames
import ClassAtlas.Proofs.ConfinedUnits
import ClassAtlas.Proofs.RecentDiagrams
import ClassAtlas.Proofs.VisibleDeclarations
import ClassAtlas.Proofs.ReturnedDocuments
import ClassAtlas.Proofs.MembersByName
import ClassAtlas.Proofs.NamedSupertypes
import ClassAtlas.Proofs.ReorderedDiagrams
import ClassAtlas.Proofs.NotedNames
import ClassAtlas.Proofs.RefusedDocuments
import ClassAtlas.Proofs.LinklessTrees
import ClassAtlas.Proofs.BrokenRuns
import ClassAtlas.Proofs.AccountedUnits
import ClassAtlas.Proofs.NeededImports
import ClassAtlas.Proofs.UnitSurroundings
import ClassAtlas.Proofs.PictureOutlines
import ClassAtlas.Proofs.SpacedRows
import ClassAtlas.Proofs.UnbrokenLines
import ClassAtlas.Proofs.CollectedSources
import ClassAtlas.Proofs.UnreadableSources
import ClassAtlas.Proofs.SoundRecords
import ClassAtlas.Proofs.LayeredSettings
import ClassAtlas.Proofs.RespacedTypes
import ClassAtlas.Proofs.ScannedNames
