import SqlSnippet.Editor.Server
import SqlSnippet.Main
import SqlSnippet.Proofs.AppendedText
import SqlSnippet.Proofs.ClauseTokens
import SqlSnippet.Proofs.CursorCalls
import SqlSnippet.Proofs.InputSources
import SqlSnippet.Proofs.JoinedScripts
import SqlSnippet.Proofs.KeptLiterals
import SqlSnippet.Proofs.LargerVocabularies
import SqlSnippet.Proofs.LetterCase
import SqlSnippet.Proofs.LoadFaults
import SqlSnippet.Proofs.MarkupReading
import SqlSnippet.Proofs.NormalForm
import SqlSnippet.Proofs.NormalWords
import SqlSnippet.Proofs.OpenDocuments
import SqlSnippet.Proofs.Respacing
import SqlSnippet.Proofs.SingleStatement
import SqlSnippet.Proofs.TokenListing
import SqlSnippet.Proofs.TrimmedPieces
import SqlSnippet.Proofs.UnclosedReports
