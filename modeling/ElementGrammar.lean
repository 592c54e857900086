import ElementGrammar.Main
import ElementGrammar.Script.Session
import ElementGrammar.Proofs.Ledger.Basic
import ElementGrammar.Proofs.Ledger.Conservation
import ElementGrammar.Proofs.Rule.Choice
import ElementGrammar.Proofs.Rule.Commute
import ElementGrammar.Proofs.Rule.Course
import ElementGrammar.Proofs.Rule.Explanation
import ElementGrammar.Proofs.Rule.Quota
import ElementGrammar.Proofs.Rule.Repeated
import ElementGrammar.Proofs.Rule.Required
import ElementGrammar.Proofs.Rule.Similar
import ElementGrammar.Proofs.Rule.Trials
import ElementGrammar.Proofs.Tree.Inserted
import ElementGrammar.Proofs.Tree.Legible
import ElementGrammar.Proofs.Tree.Preorder
import ElementGrammar.Proofs.Xml.Document
import ElementGrammar.Proofs.Xml.Presentation
import ElementGrammar.Proofs.Xml.Reading
import ElementGrammar.Proofs.Xml.Lines
import ElementGrammar.Proofs.Xml.Repeats
import ElementGrammar.Proofs.Xsd.Acceptance
import ElementGrammar.Proofs.Xsd.ComplexForms
import ElementGrammar.Proofs.Xsd.Counts
import ElementGrammar.Proofs.Xsd.ElementForms
import ElementGrammar.Proofs.Xsd.Order
import ElementGrammar.Proofs.Xsd.Padded
import ElementGrammar.Proofs.Xsd.Produced
import ElementGrammar.Proofs.Xsd.Recursion
import ElementGrammar.Proofs.Xsd.SimpleForms
