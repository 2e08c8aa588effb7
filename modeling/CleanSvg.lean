import CleanSvg.Text.Pattern
import CleanSvg.Text.Lowercase
import CleanSvg.Link.Context
import CleanSvg.Policy.Mode
import CleanSvg.Policy.AttributeClass
import CleanSvg.Markup.Place
import CleanSvg.Markup.Reference
import CleanSvg.Markup.Reader
import CleanSvg.Markup.Builder
import CleanSvg.Markup.Written
import CleanSvg.Sanitize.Document
import CleanSvg.Config.Basic
import CleanSvg.CommandLine.Run
import CleanSvg.Main
import CleanSvg.Proofs.Style.Spellings
import CleanSvg.Proofs.Style.UrlContainment
import CleanSvg.Proofs.Style.OpenCalls
import CleanSvg.Proofs.Style.ImportRules
import CleanSvg.Proofs.Sanitize.OpenNames
import CleanSvg.Proofs.Sanitize.Retained
import CleanSvg.Proofs.Sanitize.Settled
import CleanSvg.Proofs.Sanitize.Tally
import CleanSvg.Proofs.Markup.RoundTrip
import CleanSvg.Proofs.Markup.PlainNames
import CleanSvg.Proofs.Markup.StrayNames
import CleanSvg.Proofs.Markup.Balance
import CleanSvg.Proofs.Markup.Brackets
import CleanSvg.Proofs.Markup.SharedKeys
import CleanSvg.Proofs.Markup.Prefixes
import CleanSvg.Proofs.Sanitize.ReadBack
import CleanSvg.Proofs.Sanitize.Twice
import CleanSvg.Proofs.Sanitize.Unaltered
import CleanSvg.Proofs.Sanitize.LiteralUrls
import CleanSvg.Proofs.CommandLine.Faultless
import CleanSvg.Proofs.CommandLine.Settings
import CleanSvg.Proofs.CommandLine.Endings
import CleanSvg.Proofs.Link.Table
import CleanSvg.Proofs.Sanitize.ImageSets
import CleanSvg.Proofs.Sanitize.InPlace
import CleanSvg.Proofs.Sanitize.Comments
import CleanSvg.Proofs.Config.Kept
import CleanSvg.Proofs.Style.ScriptRules
import CleanSvg.Proofs.Style.Limit
import CleanSvg.Proofs.Markup.TagBytes
import CleanSvg.Proofs.Markup.Lockstep
